import Mathlib.Tactic.Positivity
import Flair.Foundations.RankWeights
import Flair.Lexical.Bm25Ranking
import Flair.Retrieval.Presentation

/-! The lexical ranking and its fusion with the semantic one: the ranking of a corpus does not
depend on the order of the corpus, and fusion scores each listed id by its places alone.
-/

namespace Flair.Retrieval

open Dynamic InsertionMap Flair.Lexical RankWeights

section

variable {K : Type*} [Field K] [LinearOrder K] [IsStrictOrderedRing K]

-- Shares

theorem rrfShare_pos (place : Nat) : (0 : K) < rrfShare place := by
  unfold rrfShare
  positivity

theorem rrfShare_falls (place : Nat) : (rrfShare (place + 1) : K) ≤ rrfShare place := by
  unfold rrfShare
  apply one_div_le_one_div_of_le
  · positivity
  · push_cast
    linarith

-- Raw scores

omit [LinearOrder K] [IsStrictOrderedRing K] in
theorem get_addPlaces (places : List (String × Nat)) (scores : InsertionMap String K)
    (id : String)
    : (places.foldl
        (fun scores place =>
          if (scores.get place.1).isSome then bump scores place.1 (rrfShare place.2) else scores)
        scores).get id
      = (scores.get id).map fun score =>
          score + (places.map fun place => if place.1 = id then rrfShare place.2 else 0).sum := by
  induction places generalizing scores with
  | nil => simp
  | cons place rest ih =>
    rw [List.foldl_cons, ih]
    by_cases same : place.1 = id
    · subst same
      cases held : scores.get place.1 with
      | none => simp [held]
      | some score => simp [held, add_assoc]
    · have apart : id ≠ place.1 := fun equal => same equal.symm
      by_cases listed : (scores.get place.1).isSome = true
      · rw [if_pos listed]
        simp [apart, same]
      · rw [if_neg listed]
        simp [same]

omit [LinearOrder K] [IsStrictOrderedRing K] in
theorem get_zeros (ids : List String) (scores : InsertionMap String K) (id : String)
    : (ids.foldl (fun scores id => scores.set id 0) scores).get id
      = if id ∈ ids then some 0 else scores.get id := by
  induction ids generalizing scores with
  | nil => simp
  | cons first rest ih =>
    rw [List.foldl_cons, ih]
    by_cases later : id ∈ rest
    · simp [later]
    · by_cases here : id = first <;> simp [later, here]

omit [LinearOrder K] [IsStrictOrderedRing K] in
theorem get_rrfScores (semIds bm25Ids : List String) (id : String)
    : (rrfScores [semIds, bm25Ids] (semIds ++ bm25Ids) : InsertionMap String K).get id
      = if id ∈ semIds ++ bm25Ids then
          some (weightOf rrfShare semIds id + weightOf rrfShare bm25Ids id)
        else none := by
  simp only [rrfScores, List.foldl_cons, List.foldl_nil, get_addPlaces, get_zeros]
  by_cases listed : id ∈ semIds ++ bm25Ids
  · simp [listed, weightOf]
  · simp [listed]

theorem distinct_foldl {α ν : Type*} {step : InsertionMap String ν → α → InsertionMap String ν}
    (keeps : ∀ scores item, Distinct scores → Distinct (step scores item)) (items : List α)
    {scores : InsertionMap String ν} (once : Distinct scores)
    : Distinct (items.foldl step scores) := by
  induction items generalizing scores with
  | nil => exact once
  | cons item rest ih => exact ih (keeps scores item once)

omit [LinearOrder K] [IsStrictOrderedRing K] in
theorem rrfScores_distinct (rankings : List (List String)) (ids : List String)
    : Distinct (rrfScores rankings ids : InsertionMap String K) := by
  have empty : Distinct ([] : InsertionMap String K) := List.nodup_nil
  apply distinct_foldl
  · intro scores ranking once
    apply distinct_foldl _ _ once
    intro scores place once
    by_cases listed : (scores.get place.1).isSome = true
    · rw [if_pos listed]
      exact once.bump _
    · rw [if_neg listed]
      exact once
  · exact distinct_foldl (fun scores id once => once.modify _) ids empty

-- The best raw score

def bestScore (raw : InsertionMap String K) (best : K) : K :=
  raw.foldl (fun best entry => if best < entry.2 then entry.2 else best) best

omit [Field K] [IsStrictOrderedRing K] in
theorem bestScore_spec (raw : InsertionMap String K) (best : K)
    : best ≤ bestScore raw best ∧ (∀ entry ∈ raw, entry.2 ≤ bestScore raw best)
      ∧ (bestScore raw best = best ∨ ∃ entry ∈ raw, entry.2 = bestScore raw best) := by
  induction raw generalizing best with
  | nil => exact ⟨le_rfl, by simp, Or.inl rfl⟩
  | cons entry rest ih =>
    obtain ⟨above, bounds, attained⟩ := ih (if best < entry.2 then entry.2 else best)
    have step : bestScore (entry :: rest) best
        = bestScore rest (if best < entry.2 then entry.2 else best) := rfl
    rw [← step] at above bounds attained
    have both : best ≤ bestScore (entry :: rest) best
        ∧ entry.2 ≤ bestScore (entry :: rest) best := by
      split at above
      · rename_i better
        exact ⟨better.le.trans above, above⟩
      · rename_i notBetter
        exact ⟨above, (not_lt.mp notBetter).trans above⟩
    refine ⟨both.1, List.forall_mem_cons.mpr ⟨both.2, bounds⟩, ?_⟩
    rcases attained with kept | ⟨found, member, same⟩
    · split at kept
      · exact Or.inr ⟨entry, List.mem_cons_self, kept.symm⟩
      · exact Or.inl kept
    · exact Or.inr ⟨found, List.mem_cons_of_mem _ member, same⟩

-- Fused scores

def maxRrf (semIds bm25Ids : List String) : K :=
  bestScore (rrfScores [semIds, bm25Ids] (semIds ++ bm25Ids)) 0

variable {semIds bm25Ids : List String} {id : String}

def rawScore (semIds bm25Ids : List String) (id : String) : K :=
  weightOf rrfShare semIds id + weightOf rrfShare bm25Ids id

theorem rawScore_pos (listed : id ∈ semIds ++ bm25Ids)
    : (0 : K) < rawScore semIds bm25Ids id := by
  have semantic := weightOf_nonneg (fun place => (rrfShare_pos place).le) semIds id (K := K)
  have lexical := weightOf_nonneg (fun place => (rrfShare_pos place).le) bm25Ids id (K := K)
  rcases List.mem_append.mp listed with inside | inside
  · exact add_pos_of_pos_of_nonneg (weightOf_pos rrfShare_pos inside) lexical
  · exact add_pos_of_nonneg_of_pos semantic (weightOf_pos rrfShare_pos inside)

omit [IsStrictOrderedRing K] in
theorem rawScore_le_max (listed : id ∈ semIds ++ bm25Ids)
    : (rawScore semIds bm25Ids id : K) ≤ maxRrf semIds bm25Ids := by
  have held := get_rrfScores (K := K) semIds bm25Ids id
  rw [if_pos listed] at held
  exact (bestScore_spec _ 0).2.1 _ (mem_of_get held)

theorem maxRrf_attained (some_listed : semIds ++ bm25Ids ≠ [])
    : ∃ id ∈ semIds ++ bm25Ids, (rawScore semIds bm25Ids id : K) = maxRrf semIds bm25Ids := by
  obtain ⟨first, listed⟩ := List.exists_mem_of_ne_nil _ some_listed
  have positive := (rawScore_pos listed).trans_le (rawScore_le_max (K := K) listed)
  rcases (bestScore_spec (rrfScores [semIds, bm25Ids] (semIds ++ bm25Ids) :
      InsertionMap String K) 0).2.2 with zero | ⟨entry, member, same⟩
  · exact absurd zero positive.ne'
  have held := (rrfScores_distinct _ _).get_of_mem (show (entry.1, entry.2) ∈ _ from member)
  rw [get_rrfScores] at held
  split at held
  · rename_i inside
    exact ⟨entry.1, inside, (Option.some.inj held).trans same⟩
  · cases held

omit [Field K] [LinearOrder K] [IsStrictOrderedRing K] in
theorem get_map_values (map : InsertionMap String K) (change : K → K) (id : String)
    : InsertionMap.get (map.map fun entry => (entry.1, change entry.2)) id
      = (map.get id).map change := by
  induction map with
  | nil => rfl
  | cons entry rest ih =>
    by_cases here : entry.1 = id
    · simp [InsertionMap.get, here]
    · simp [InsertionMap.get, here, ih]

theorem get_fuseRrfNormalized
    : (fuseRrfNormalized semIds bm25Ids : InsertionMap String K).get id
      = if id ∈ semIds ++ bm25Ids then
          some (rawScore semIds bm25Ids id / maxRrf semIds bm25Ids)
        else none := by
  have fused : (fuseRrfNormalized semIds bm25Ids : InsertionMap String K)
      = if maxRrf semIds bm25Ids ≤ (0 : K) then
          (rrfScores [semIds, bm25Ids] (semIds ++ bm25Ids)).map fun entry => (entry.1, 0)
        else (rrfScores [semIds, bm25Ids] (semIds ++ bm25Ids)).map fun entry =>
          (entry.1, entry.2 / maxRrf semIds bm25Ids) := rfl
  rw [fused]
  by_cases listed : id ∈ semIds ++ bm25Ids
  · have positive := (rawScore_pos listed).trans_le (rawScore_le_max (K := K) listed)
    rw [if_neg (not_le.mpr positive), get_map_values _ fun score => score / maxRrf semIds bm25Ids,
      get_rrfScores, if_pos listed, if_pos listed]
    rfl
  · rw [if_neg listed]
    split
    · rw [get_map_values _ fun _ => 0, get_rrfScores, if_neg listed]
      rfl
    · rw [get_map_values _ fun score => score / maxRrf semIds bm25Ids, get_rrfScores,
        if_neg listed]
      rfl

/-- The fused scores of two lists: each listed id has one, between zero and one; some id has
one when any is listed; and an id that ranks at or above another in both lists has no lower
score.
-/
structure FusedByRank (semIds bm25Ids : List String) (fused : InsertionMap String K)
    : Prop where
  scored : ∀ id, (fused.get id).isSome = true ↔ id ∈ semIds ∨ id ∈ bm25Ids
  range : ∀ id score, fused.get id = some score → 0 ≤ score ∧ score ≤ 1
  best : semIds ≠ [] ∨ bm25Ids ≠ [] → ∃ id, fused.get id = some 1
  ordered : ∀ upper lower, RanksAtOrAbove semIds upper lower
    → RanksAtOrAbove bm25Ids upper lower
    → ∀ high low, fused.get upper = some high → fused.get lower = some low → low ≤ high

theorem fusedByRank (semIds bm25Ids : List String)
    : FusedByRank (K := K) semIds bm25Ids (fuseRrfNormalized semIds bm25Ids) where
  scored id := by
    rw [get_fuseRrfNormalized, ← List.mem_append]
    split <;> simp_all
  range id score held := by
    rw [get_fuseRrfNormalized, Option.ite_none_right_eq_some] at held
    obtain ⟨listed, same⟩ := held
    cases same
    have positive := rawScore_pos (K := K) listed
    have below := rawScore_le_max (K := K) listed
    have best := positive.trans_le below
    exact ⟨div_nonneg positive.le best.le, (div_le_one best).mpr below⟩
  best some_listed := by
    have nonempty : semIds ++ bm25Ids ≠ [] := by
      rcases some_listed with semantic | lexical
      · exact List.append_ne_nil_of_left_ne_nil semantic _
      · exact List.append_ne_nil_of_right_ne_nil _ lexical
    obtain ⟨id, listed, same⟩ := maxRrf_attained (K := K) nonempty
    refine ⟨id, ?_⟩
    have positive := rawScore_pos (K := K) listed
    rw [get_fuseRrfNormalized, if_pos listed, ← same, div_self positive.ne']
  ordered upper lower semantic lexical high low heldHigh heldLow := by
    rw [get_fuseRrfNormalized, Option.ite_none_right_eq_some] at heldHigh heldLow
    obtain ⟨listed, same⟩ := heldHigh
    obtain ⟨-, other⟩ := heldLow
    cases same
    cases other
    have best := (rawScore_pos listed).trans_le (rawScore_le_max (K := K) listed)
    have weighs (ranking : List String) (above : RanksAtOrAbove ranking upper lower) :=
      weightOf_le (K := K) (fun place => (rrfShare_pos place).le) rrfShare_falls above
    apply div_le_div_of_nonneg_right _ best.le
    exact add_le_add (weighs semIds semantic) (weighs bm25Ids lexical)

/-- The lexical ranking of a corpus, its scores and ties included, is that of every
permutation of the corpus, and fusion scores by rank alone.
-/
theorem rankings_order_independent (idf : Int → Nat → K)
    : (∀ docs other : List BM25Doc, docs.Perm other
        → ∀ query, bm25Rank idf docs query = bm25Rank idf other query)
      ∧ ∀ semIds bm25Ids : List String,
        FusedByRank (K := K) semIds bm25Ids (fuseRrfNormalized semIds bm25Ids) :=
  ⟨fun _ _ same query => bm25Rank_perm idf same query, fusedByRank⟩

end

/-- Witness: two documents in either order, and a fusion that ranks one above the other. -/
theorem rankings_order_independent_two
    : let relay : BM25Doc := ⟨"relay", some (.str "relay deadline sweep")⟩
      let bridge : BM25Doc := ⟨"bridge", some (.str "bridge sweep")⟩
      let fused : InsertionMap String ℚ := fuseRrfNormalized ["relay", "bridge"] ["relay"]
      bm25Rank (fun _ _ => (1 : ℚ)) [relay, bridge] "sweep"
          = bm25Rank (fun _ _ => (1 : ℚ)) [bridge, relay] "sweep"
        ∧ (∃ id, fused.get id = some 1)
        ∧ ∀ high low, fused.get "relay" = some high → fused.get "bridge" = some low
          → low ≤ high := by
  have laws := rankings_order_independent fun _ _ => (1 : ℚ)
  have fused := laws.2 ["relay", "bridge"] ["relay"]
  refine ⟨laws.1 _ _ (List.Perm.swap _ _ []) "sweep", ?_, ?_⟩
  · exact fused.best (Or.inl (List.cons_ne_nil _ _))
  · apply fused.ordered
    · exact ranksAtOrAbove_of_idxOf (by decide) (by decide)
    · exact ranksAtOrAbove_of_idxOf (by decide) (by decide)

end Flair.Retrieval
