import Flair.Lexical.Bm25
import Mathlib.Algebra.Order.BigOperators.Group.List

/-! The ranking of BM25 is a total order, and document frequencies and scores are sums over
the corpus, so that neither depends on the order of the corpus.
-/

namespace Flair.Lexical

open Dynamic InsertionMap

-- Order of the ranking

section

variable {K : Type*} [LinearOrder K] {left right : BM25Scored K}

theorem RanksBefore.total (left right : BM25Scored K)
    : RanksBefore left right ∨ RanksBefore right left := by
  rcases lt_trichotomy left.score right.score with less | same | more
  · exact Or.inr (Or.inl less)
  · by_cases after : textLt right.id left.id
    · exact Or.inr (Or.inr ⟨same.symm, textLt_asymm after⟩)
    · exact Or.inl (Or.inr ⟨same, after⟩)
  · exact Or.inl (Or.inl more)

theorem RanksBefore.trans {last : BM25Scored K} (first : RanksBefore left right)
    (second : RanksBefore right last)
    : RanksBefore left last := by
  rcases first with more | ⟨same, ordered⟩
  · rcases second with again | ⟨equal, -⟩
    · exact Or.inl (again.trans more)
    · exact Or.inl (equal ▸ more)
  · rcases second with again | ⟨equal, later⟩
    · exact Or.inl (same ▸ again)
    refine Or.inr ⟨same.trans equal, ?_⟩
    intro before
    rcases textLt_trichotomy right.id left.id with less | equal | less
    · exact ordered less
    · exact later (equal ▸ before)
    · exact later (textLt_trans before less)

theorem RanksBefore.antisymm (first : RanksBefore left right) (second : RanksBefore right left)
    : left = right := by
  have scores : left.score = right.score := by
    rcases first with more | ⟨same, -⟩
    · rcases second with again | ⟨same, -⟩
      · exact absurd again (lt_asymm more)
      · exact same.symm
    · exact same
  have ids : left.id = right.id := by
    rcases first with more | ⟨-, ordered⟩
    · exact absurd scores (ne_of_gt more)
    rcases second with more | ⟨-, later⟩
    · exact absurd scores (ne_of_lt more)
    rcases textLt_trichotomy left.id right.id with less | same | less
    · exact absurd less later
    · exact same
    · exact absurd less ordered
  cases left
  cases right
  simp_all

theorem pairwise_ranked (scored : List (BM25Scored K))
    : (scored.insertionSort RanksBefore).Pairwise RanksBefore := by
  have transitive : IsTrans (BM25Scored K) RanksBefore := ⟨fun _ _ _ => RanksBefore.trans⟩
  have everywhere : Std.Total (RanksBefore : BM25Scored K → BM25Scored K → Prop) :=
    ⟨RanksBefore.total⟩
  exact List.pairwise_insertionSort RanksBefore scored

end

-- Document frequencies

def holding (term : String) (tokens : List String) : Nat :=
  ((termFrequencies tokens).get term).toList.length

theorem termFrequencies_distinct (tokens : List String) : Distinct (termFrequencies tokens) := by
  have empty : Distinct ([] : InsertionMap String Nat) := List.nodup_nil
  exact empty.foldl_bump tokens id fun _ => 1

theorem length_get {tf : InsertionMap String Nat} (once : Distinct tf) (term : String)
    : (tf.map fun entry => if entry.1 = term then 1 else 0).sum
      = (tf.get term).toList.length := by
  induction tf with
  | nil => rfl
  | cons entry rest ih =>
    obtain ⟨fresh, later⟩ := List.nodup_cons.mp once
    rw [List.map_cons, List.sum_cons, ih later]
    by_cases here : entry.1 = term
    · subst here
      simp [InsertionMap.get, get_eq_none fresh]
    · simp [InsertionMap.get, here]

theorem documentFrequencies_total (docs : List BM25Doc) (term : String)
    : total (fun place => decide (place = term)) (documentFrequencies docs)
      = (docs.map fun doc => holding term (docTokens doc)).sum := by
  have grows : ∀ (docs : List BM25Doc) (start : InsertionMap String Nat),
      total (fun place => decide (place = term))
          (docs.foldl
            (fun df doc =>
              (termFrequencies (docTokens doc)).foldl (fun df entry => bump df entry.1 1) df)
            start)
        = total (fun place => decide (place = term)) start
          + (docs.map fun doc => holding term (docTokens doc)).sum := by
    intro docs
    induction docs with
    | nil => simp
    | cons doc rest ih =>
      intro start
      rw [List.foldl_cons, ih, total_fold_bump _ Prod.fst (fun _ => 1), List.map_cons,
        List.sum_cons, ← add_assoc, holding, ← length_get (termFrequencies_distinct _)]
      simp
  rw [documentFrequencies, grows, total_nil, zero_add]

theorem documentFrequencies_distinct (docs : List BM25Doc)
    : Distinct (documentFrequencies docs) := by
  have grows : ∀ (docs : List BM25Doc) (start : InsertionMap String Nat), Distinct start
      → Distinct (docs.foldl
          (fun df doc =>
            (termFrequencies (docTokens doc)).foldl (fun df entry => bump df entry.1 1) df)
          start) := by
    intro docs
    induction docs with
    | nil => exact fun _ once => once
    | cons doc rest ih => exact fun _ once => ih _ (once.foldl_bump _ Prod.fst fun _ => 1)
  exact grows docs [] List.nodup_nil

theorem documentFrequencies_get {docs : List BM25Doc} {doc : BM25Doc} (member : doc ∈ docs)
    {term : String} {f : Nat} (occurs : (termFrequencies (docTokens doc)).get term = some f)
    : (documentFrequencies docs).get term
      = some (docs.map fun doc => holding term (docTokens doc)).sum := by
  have counted := (documentFrequencies_distinct docs).getD_get term
  rw [documentFrequencies_total] at counted
  cases found : (documentFrequencies docs).get term with
  | some count =>
    rw [found, Option.getD_some] at counted
    rw [counted]
  | none =>
    exfalso
    rw [found, Option.getD_none] at counted
    have here := List.sum_eq_zero_iff.mp counted.symm _ (List.mem_map_of_mem member)
    simp [holding, occurs] at here

section

variable {K : Type*} [Field K] [LinearOrder K]

omit [LinearOrder K] in
theorem foldl_eq_sum {α : Type*} {step : K → α → K} {f : α → K}
    (adds : ∀ score item, step score item = score + f item) (items : List α) (score : K)
    : items.foldl step score = score + (items.map f).sum := by
  induction items generalizing score with
  | nil => simp
  | cons item rest ih =>
    rw [List.foldl_cons, ih, adds, List.map_cons, List.sum_cons, add_assoc]

theorem docScore_eq (idf : Int → Nat → K) (docs : List BM25Doc) (terms : List String)
    (doc : BM25Doc)
    : docScore idf docs terms doc
      = (terms.map fun term => ((termFrequencies (docTokens doc)).get term).elim 0 fun f =>
          termScore ((((documentFrequencies docs).get term).map (idf docs.length)).getD 0) f
            (docTokens doc).length (orOne (averageLength docs))).sum := by
  unfold docScore
  rw [foldl_eq_sum, zero_add]
  intro score term
  cases (termFrequencies (docTokens doc)).get term with
  | none => exact (add_zero score).symm
  | some f =>
    cases f with
    | zero => simp [termScore]
    | succ f => rfl

theorem docScore_perm (idf : Int → Nat → K) {docs other : List BM25Doc} (same : docs.Perm other)
    (terms : List String) {doc : BM25Doc} (member : doc ∈ docs)
    : docScore idf docs terms doc = docScore idf other terms doc := by
  have lengths : (averageLength docs : K) = averageLength other := by
    unfold averageLength
    rw [(same.map _).sum_eq, same.length_eq]
  rw [docScore_eq, docScore_eq, lengths, same.length_eq]
  congr 1
  apply List.map_congr_left
  intro term _
  cases occurs : (termFrequencies (docTokens doc)).get term with
  | none => rfl
  | some f =>
    rw [documentFrequencies_get member occurs,
      documentFrequencies_get (same.mem_iff.mp member) occurs, (same.map _).sum_eq]

theorem bm25Rank_perm (idf : Int → Nat → K) {docs other : List BM25Doc} (same : docs.Perm other)
    (query : String)
    : bm25Rank idf docs query = bm25Rank idf other query := by
  have scored : (docs.map fun doc => ({
          id := doc.id
          score := docScore idf docs (tokenize query).eraseDups doc } : BM25Scored K))
      = docs.map fun doc => {
          id := doc.id
          score := docScore idf other (tokenize query).eraseDups doc } := by
    apply List.map_congr_left
    intro doc member
    rw [docScore_perm idf same _ member]
  unfold bm25Rank
  rw [scored]
  refine List.Perm.eq_of_pairwise
    (fun left right _ _ before after => RanksBefore.antisymm before after) ?_ ?_ ?_
  · exact pairwise_ranked _
  · exact pairwise_ranked _
  · exact (List.perm_insertionSort _ _).trans
      ((same.map _).trans (List.perm_insertionSort _ _).symm)

end

end Flair.Lexical
