import Flair.Lexical.Bm25Ranking
import Flair.Retrieval.Candidates
import Mathlib.Data.Rat.Floor

/-! A retrieval reads a store only through the rows that its conditions select and, apart
from what the vector index is asked over, only through the rows that the reader may see.
-/

namespace Flair.Retrieval

open Dynamic InsertionMap Flair.Lexical

-- Order

section

variable {K : Type*} [LinearOrder K]

theorem RankedBefore.total (left right : RetrievalRankedRow K)
    : RankedBefore left right ∨ RankedBefore right left := by
  rcases lt_trichotomy left.rank right.rank with less | same | more
  · exact Or.inr (Or.inl less)
  · rcases textLt_trichotomy (createdAtText left.row.record) (createdAtText right.row.record)
      with older | equal | newer
    · exact Or.inr (Or.inr ⟨same.symm, Or.inl older⟩)
    · by_cases after : textLt (rowId right.row.record) (rowId left.row.record)
      · exact Or.inr (Or.inr ⟨same.symm, Or.inr ⟨equal.symm, textLt_asymm after⟩⟩)
      · exact Or.inl (Or.inr ⟨same, Or.inr ⟨equal, after⟩⟩)
    · exact Or.inl (Or.inr ⟨same, Or.inl newer⟩)
  · exact Or.inl (Or.inl more)

theorem not_textLt_trans {a b c : String} (first : ¬ textLt b a) (second : ¬ textLt c b)
    : ¬ textLt c a := by
  intro less
  rcases textLt_trichotomy b c with before | same | after
  · exact first (textLt_trans before less)
  · exact first (same ▸ less)
  · exact second after

theorem RankedBefore.trans {first second third : RetrievalRankedRow K}
    (before : RankedBefore first second) (after : RankedBefore second third)
    : RankedBefore first third := by
  rcases before with more | ⟨same, recent⟩
  · rcases after with again | ⟨equal, -⟩
    · exact Or.inl (again.trans more)
    · exact Or.inl (equal ▸ more)
  · rcases after with again | ⟨equal, later⟩
    · exact Or.inl (same ▸ again)
    refine Or.inr ⟨same.trans equal, ?_⟩
    rcases recent with newer | ⟨created, ids⟩
    · rcases later with newest | ⟨sameTime, -⟩
      · exact Or.inl (textLt_trans newest newer)
      · exact Or.inl (sameTime ▸ newer)
    · rcases later with newest | ⟨sameTime, more⟩
      · exact Or.inl (created ▸ newest)
      · exact Or.inr ⟨created.trans sameTime, not_textLt_trans ids more⟩

theorem RankedBefore.same_id {first second : RetrievalRankedRow K}
    (before : RankedBefore first second) (after : RankedBefore second first)
    : rowId first.row.record = rowId second.row.record := by
  rcases before with more | ⟨same, recent⟩
  · rcases after with again | ⟨equal, -⟩
    · exact absurd again (lt_asymm more)
    · exact absurd equal (ne_of_lt more)
  · rcases after with more | ⟨-, later⟩
    · exact absurd same (ne_of_lt more)
    rcases recent with newer | ⟨created, ids⟩
    · rcases later with newest | ⟨equal, -⟩
      · exact absurd newest (textLt_asymm newer)
      · exact absurd (equal ▸ newer) (textLt_irrefl _)
    · rcases later with newest | ⟨-, more⟩
      · exact absurd (created ▸ newest) (textLt_irrefl _)
      rcases textLt_trichotomy (rowId first.row.record) (rowId second.row.record)
        with less | equal | less
      · exact absurd less more
      · exact equal
      · exact absurd less ids

theorem pairwise_ordered (ranked : List (RetrievalRankedRow K))
    : (ranked.insertionSort RankedBefore).Pairwise RankedBefore := by
  have transitive : IsTrans (RetrievalRankedRow K) RankedBefore :=
    ⟨fun _ _ _ => RankedBefore.trans⟩
  have everywhere : Std.Total
      (RankedBefore : RetrievalRankedRow K → RetrievalRankedRow K → Prop) :=
    ⟨RankedBefore.total⟩
  exact List.pairwise_insertionSort RankedBefore ranked

end

section

variable {K : Type*} {runtime : Runtime K} {db : Database K} {params : RetrievalParams K}
variable {rows left right : List Record}

-- Projection

theorem selected_get (row : Record) {field : String} (listed : field ∈ defaultSelect)
    : (selected params row).get field = row.get field := by
  unfold selected
  rw [Record.get_filter]
  cases row.get field <;> simp [Option.filter, listed]

theorem rowId_selected (row : Record) : rowId (selected params row) = rowId row := by
  unfold rowId
  rw [selected_get row (by simp [defaultSelect])]

variable {record : Record}

theorem passesAllowed_congr {other : Record} (owner : record.get "agentId" = other.get "agentId")
    (visibility : record.get "visibility" = other.get "visibility")
    : passesAllowed params record = passesAllowed params other := by
  unfold passesAllowed scopeAllows
  rw [owner, visibility]

theorem keeps_selected (row : Record)
    : keeps runtime params (selected params row) = keeps runtime params row := by
  unfold keeps
  rw [passesAllowed_congr (selected_get row (by simp [defaultSelect]))
    (selected_get row (by simp [defaultSelect]))]
  congr 1
  apply passesRecordFilters_congr
  intro field listed
  apply selected_get
  simp only [filterFields, List.mem_cons, List.not_mem_nil, or_false] at listed
  rcases listed with rfl | rfl | rfl | rfl <;> simp [defaultSelect]

-- Stores

/-- A row the reader may see: it meets the conditions, the temporal filters and the scope. -/
def seen (runtime : Runtime K) (db : Database K) (params : RetrievalParams K) (row : Record)
    : Bool :=
  (params.conditions.all fun condition => db.meets condition row) && keeps runtime params row

variable {row : Record}

theorem mem_search {conditions : List Condition}
    : row ∈ db.search conditions rows
      ↔ row ∈ rows ∧ ∀ condition ∈ conditions, db.meets condition row = true := by
  unfold Database.search
  rw [List.mem_filter, List.all_eq_true]

theorem lookup_of_mem (store : Store rows) (member : row ∈ rows)
    : lookup rows (rowId row) = some row := by
  unfold lookup
  cases found : rows.find? fun other => rowId other = rowId row with
  | none =>
    rw [List.find?_eq_none] at found
    exact absurd (decide_eq_true rfl) (found row member)
  | some other =>
    have same : rowId other = rowId row := by simpa using List.find?_some found
    rw [List.inj_on_of_nodup_map store (List.mem_of_find?_eq_some found) member same]

/-- Two stores hold the same rows among those a query may see. -/
def SameSeen (runtime : Runtime K) (db : Database K) (params : RetrievalParams K)
    (left right : List Record) : Prop :=
  (left.filter (seen runtime db params)).Perm (right.filter (seen runtime db params))

/-- Two stores hold the same rows among those the vector index is asked over. -/
def SameEligible (db : Database K) (params : RetrievalParams K) (left right : List Record)
    : Prop :=
  (db.search (params.conditions ++ [db.trustedVectorCondition]) left).Perm
    (db.search (params.conditions ++ [db.trustedVectorCondition]) right)

-- The corpus

theorem corpus_eq (rows : List Record)
    : corpus runtime db params rows
      = ((rows.filter (seen runtime db params)).filter fun row =>
          matchesConditions params.conditions (selected params row)).map (selected params) := by
  unfold corpus Database.search
  rw [List.filter_map, List.filter_filter, List.filter_filter]
  congr 1
  apply List.filter_congr
  intro row _
  have kept : keeps runtime params (selected params row) = keeps runtime params row :=
    keeps_selected row
  unfold keeps at kept
  unfold isAllowedBm25Candidate seen keeps
  rw [Function.comp_apply, ← kept]
  ac_rfl

theorem corpus_perm (agree : SameSeen runtime db params left right)
    : (corpus runtime db params left).Perm (corpus runtime db params right) := by
  rw [corpus_eq, corpus_eq]
  exact (agree.filter _).map _

theorem mem_corpus (member : record ∈ corpus runtime db params rows)
    : ∃ row ∈ rows, seen runtime db params row = true ∧ record = selected params row := by
  rw [corpus_eq] at member
  obtain ⟨row, listed, rfl⟩ := List.mem_map.mp member
  obtain ⟨inside, visible⟩ := List.mem_filter.mp (List.mem_filter.mp listed).1
  exact ⟨row, inside, visible, rfl⟩

theorem corpus_store (store : Store rows) : Store (corpus runtime db params rows) := by
  unfold Store
  rw [corpus_eq, List.map_map]
  have ids : (rowId ∘ selected params) = rowId := by
    funext row
    exact rowId_selected row
  rw [ids]
  exact store.sublist ((List.filter_sublist.trans List.filter_sublist).map _)

-- Allowed records

variable {scanned : List Record}

theorem get_scanned (store : Store scanned) (start : InsertionMap String Record) (id : String)
    : (scanned.foldl (fun held record => held.set (rowId record) record) start).get id
      = (lookup scanned id).or (start.get id) := by
  induction scanned generalizing start with
  | nil => rfl
  | cons record rest ih =>
    obtain ⟨fresh, later⟩ := List.nodup_cons.mp store
    rw [List.foldl_cons, ih later, get_set]
    unfold lookup
    by_cases here : rowId record = id
    · have missing : rest.find? (fun other => rowId other = id) = none := by
        rw [List.find?_eq_none]
        intro other member equal
        apply fresh
        rw [here, ← of_decide_eq_true equal]
        exact List.mem_map_of_mem member
      rw [missing, List.find?_cons_of_pos (by simpa using here), if_pos here.symm]
      rfl
    · have apart : id ≠ rowId record := fun equal => here equal.symm
      rw [List.find?_cons_of_neg (by simpa using here), if_neg apart]

variable {other : List Record}

theorem lookup_perm {records : List Record} (store : Store records) (same : records.Perm other)
    (id : String)
    : lookup records id = lookup other id := by
  have storeOther : Store other := ((same.map rowId).nodup_iff).mp store
  cases found : lookup other id with
  | some record =>
    have named : rowId record = id := by simpa using List.find?_some found
    have member := same.mem_iff.mpr (List.mem_of_find?_eq_some found)
    rw [← named, lookup_of_mem store member]
  | none =>
    unfold lookup at found ⊢
    rw [List.find?_eq_none] at found ⊢
    intro record member
    exact found record (same.mem_iff.mp member)

theorem get_hits_congr {hits : List (SemanticHit K)} {start other : InsertionMap String Record}
    (same : ∀ id, start.get id = other.get id) (id : String)
    : (hits.foldl
        (fun held hit =>
          if (held.get (rowId hit.record)).isSome then held
          else held.set (rowId hit.record) hit.record)
        start).get id
      = (hits.foldl
        (fun held hit =>
          if (held.get (rowId hit.record)).isSome then held
          else held.set (rowId hit.record) hit.record)
        other).get id := by
  induction hits generalizing start other with
  | nil => exact same id
  | cons hit rest ih =>
    rw [List.foldl_cons, List.foldl_cons]
    apply ih
    intro place
    rw [same (rowId hit.record)]
    split
    · exact same place
    · rw [get_set, get_set, same place]

variable {id : String}

theorem mem_hits {hits : List (SemanticHit K)} {start : InsertionMap String Record}
    (found : (hits.foldl
        (fun held hit =>
          if (held.get (rowId hit.record)).isSome then held
          else held.set (rowId hit.record) hit.record)
        start).get id = some record)
    : start.get id = some record ∨ ∃ hit ∈ hits, hit.record = record ∧ rowId record = id := by
  induction hits generalizing start with
  | nil => exact Or.inl found
  | cons hit rest ih =>
    rw [List.foldl_cons] at found
    rcases ih found with earlier | ⟨other, member, same⟩
    · split at earlier
      · exact Or.inl earlier
      rw [get_set] at earlier
      split at earlier
      · rename_i here
        cases earlier
        exact Or.inr ⟨hit, List.mem_cons_self, rfl, here.symm⟩
      · exact Or.inl earlier
    · exact Or.inr ⟨other, List.mem_cons_of_mem _ member, same⟩

theorem allowedById_congr (hits : List (SemanticHit K)) (store : Store scanned)
    (same : scanned.Perm other) (id : String)
    : (allowedById scanned hits).get id = (allowedById other hits).get id := by
  have storeOther : Store other := ((same.map rowId).nodup_iff).mp store
  apply get_hits_congr
  intro place
  rw [get_scanned store, get_scanned storeOther, lookup_perm store same]

theorem mem_allowedById {hits : List (SemanticHit K)} (store : Store scanned)
    (found : (allowedById scanned hits).get id = some record)
    : rowId record = id ∧ (record ∈ scanned ∨ ∃ hit ∈ hits, hit.record = record) := by
  rcases mem_hits found with earlier | ⟨hit, member, same, named⟩
  · rw [get_scanned store] at earlier
    have looked : lookup scanned id = some record := by simpa using earlier
    have named : rowId record = id := by simpa using List.find?_some looked
    exact ⟨named, Or.inl (List.mem_of_find?_eq_some looked)⟩
  · exact ⟨named, Or.inr ⟨hit, member, same⟩⟩

theorem scanned_entries (store : Store scanned)
    : (allowedById scanned ([] : List (SemanticHit K)))
      = scanned.map fun record => (rowId record, record) := by
  have grows : ∀ (records : List Record) (start : InsertionMap String Record),
      (∀ record ∈ records, start.get (rowId record) = none) → Store records
      → records.foldl (fun held record => held.set (rowId record) record) start
        = start ++ records.map fun record => (rowId record, record) := by
    intro records
    induction records with
    | nil => simp
    | cons record rest ih =>
      intro start fresh once
      obtain ⟨apart, later⟩ := List.nodup_cons.mp once
      have appended : start.set (rowId record) record = start ++ [(rowId record, record)] :=
        set_fresh (fresh record List.mem_cons_self)
      rw [List.foldl_cons, ih _ _ later, appended]
      · simp
      intro other member
      rw [get_set, if_neg]
      · exact fresh other (List.mem_cons_of_mem _ member)
      intro same
      apply apart
      rw [← same]
      exact List.mem_map_of_mem member
  have whole := grows scanned [] (fun _ _ => rfl) store
  rw [List.nil_append] at whole
  exact whole

-- Agreeing stores

/-- The stores agree where the query looks: on the seen rows and, if the vector index is
asked, on the rows it is asked over.
-/
structure AgreeFor (runtime : Runtime K) (db : Database K) (params : RetrievalParams K)
    (left right : List Record) : Prop where
  storeLeft : Store left
  storeRight : Store right
  visible : SameSeen runtime db params left right
  eligible : params.queryEmbedding.isSome = true → params.mode ≠ .bm25Only
    → SameEligible db params left right

theorem AgreeFor.lookup_eq (agree : AgreeFor runtime db params left right) (inside : row ∈ left)
    (kept : seen runtime db params row = true)
    : lookup right (rowId row) = some row := by
  have member : row ∈ right.filter (seen runtime db params) :=
    agree.visible.mem_iff.mp (List.mem_filter.mpr ⟨inside, kept⟩)
  exact lookup_of_mem agree.storeRight (List.mem_filter.mp member).1

theorem scannedRows_perm (agree : SameSeen runtime db params left right)
    : (scannedRows runtime db params left).Perm (scannedRows runtime db params right) := by
  unfold scannedRows
  split
  · exact corpus_perm agree
  · exact List.Perm.refl _

theorem scannedRows_store (store : Store rows) : Store (scannedRows runtime db params rows) := by
  unfold scannedRows
  split
  · exact corpus_store store
  · exact List.nodup_nil

theorem mem_scannedRows (member : record ∈ scannedRows runtime db params rows)
    : record ∈ corpus runtime db params rows := by
  unfold scannedRows at member
  split at member
  · exact member
  · cases member

theorem fusedSimilarity_congr (hits : List (SemanticHit K))
    (same : lookup left id = lookup right id)
    : fusedSimilarity runtime db params left hits id
      = fusedSimilarity runtime db params right hits id := by
  unfold fusedSimilarity
  rw [same]

/-- What two runs over agreeing stores may differ in before they are ordered. -/
def SameRanked (first second : List (RetrievalRankedRow K)) : Prop :=
  first = second
  ∨ (first.Perm second
    ∧ ∀ one ∈ first, ∀ other ∈ first, rowId one.row.record = rowId other.row.record → one = other)

theorem rowId_shown (runtime : Runtime K) (agentId : Option Value) (record : Record)
    : rowId (shownRecord runtime agentId record) = rowId record := by
  unfold rowId
  rw [shownRecord_get runtime agentId record (by simp [shownAsStored, promotionBindingFields])]

theorem SameRanked.of_perm {records : List Record} {push : Record → RetrievalRankedRow K}
    (store : Store records) (same : records.Perm other)
    (ids : ∀ record, rowId (push record).row.record = rowId record)
    : SameRanked (records.map push) (other.map push) := by
  right
  refine ⟨same.map push, ?_⟩
  intro one first another second equal
  obtain ⟨record, member, rfl⟩ := List.mem_map.mp first
  obtain ⟨twin, inside, rfl⟩ := List.mem_map.mp second
  rw [ids, ids] at equal
  rw [List.inj_on_of_nodup_map store member inside equal]

variable [Field K]

-- The vector leg

theorem mem_semanticLeg {target : List K} {hit : SemanticHit K}
    (member : hit ∈ semanticLeg runtime db params rows target)
    : ∃ row ∈ db.search (params.conditions ++ [db.trustedVectorCondition]) rows,
        seen runtime db params row = true ∧ hit.record = selected params row := by
  unfold semanticLeg at member
  obtain ⟨candidate, listed, found⟩ := List.mem_filterMap.mp member
  have inside := db.vectors.only _ _ _ candidate listed
  dsimp only at found
  split at found
  · rename_i kept
    cases found
    refine ⟨candidate.1, inside, ?_, rfl⟩
    rw [keeps_selected] at kept
    unfold seen
    rw [kept, Bool.and_true, List.all_eq_true]
    intro condition asked
    exact (mem_search.mp inside).2 condition (List.mem_append_left _ asked)
  · cases found

theorem semanticLeg_congr (storeLeft : Store left) (storeRight : Store right)
    (eligible : SameEligible db params left right) (target : List K)
    : semanticLeg runtime db params left target = semanticLeg runtime db params right target := by
  unfold semanticLeg
  have store : Store (db.search (params.conditions ++ [db.trustedVectorCondition]) left) :=
    storeLeft.sublist (List.filter_sublist.map _)
  rw [db.vectors.unordered target params.limit store eligible]
  apply List.filterMap_congr
  intro candidate listed
  have inside := db.vectors.only _ _ _ candidate listed
  have before := eligible.mem_iff.mpr inside
  dsimp only
  rw [rowId_selected, lookup_of_mem storeLeft (mem_search.mp before).1,
    lookup_of_mem storeRight (mem_search.mp inside).1]

theorem allowed_row (store : Store rows)
    (found : (allowedById (scannedRows runtime db params rows)
      (semanticHits runtime db params rows)).get id = some record)
    : ∃ row ∈ rows, seen runtime db params row = true ∧ record = selected params row
        ∧ lookup rows id = some row := by
  have reached : ∃ row ∈ rows, seen runtime db params row = true
      ∧ record = selected params row := by
    rcases (mem_allowedById (scannedRows_store store) found).2 with inside | ⟨hit, member, same⟩
    · exact mem_corpus (mem_scannedRows inside)
    unfold semanticHits at member
    cases embedding : params.queryEmbedding with
    | none =>
      rw [embedding] at member
      cases member
    | some target =>
      rw [embedding] at member
      obtain ⟨row, listed, visible, projected⟩ := mem_semanticLeg member
      exact ⟨row, (mem_search.mp listed).1, visible, same ▸ projected⟩
  obtain ⟨row, inside, visible, projected⟩ := reached
  refine ⟨row, inside, visible, projected, ?_⟩
  rw [← (mem_allowedById (scannedRows_store store) found).1, projected, rowId_selected,
    lookup_of_mem store inside]

theorem AgreeFor.hits (agree : AgreeFor runtime db params left right)
    (asked : params.mode ≠ .bm25Only)
    : semanticHits runtime db params left = semanticHits runtime db params right := by
  unfold semanticHits
  cases embedding : params.queryEmbedding with
  | none => rfl
  | some target =>
    have eligible := agree.eligible (by rw [embedding]; rfl) asked
    exact semanticLeg_congr agree.storeLeft agree.storeRight eligible target

variable [LinearOrder K]

theorem lexicalIds_congr (agree : SameSeen runtime db params left right)
    : lexicalIds runtime params (corpus runtime db params left)
      = lexicalIds runtime params (corpus runtime db params right) := by
  unfold lexicalIds
  rw [bm25Rank_perm runtime.idf ((corpus_perm agree).map docOf)]

theorem lexicalLeg_congr (agree : SameSeen runtime db params left right)
    : lexicalLeg runtime params (scannedRows runtime db params left)
      = lexicalLeg runtime params (scannedRows runtime db params right) := by
  unfold lexicalLeg scannedRows
  by_cases asked : params.q ≠ ""
  · rw [if_pos asked, if_pos asked, if_pos (Or.inl asked), if_pos (Or.inl asked),
      lexicalIds_congr agree]
  · rw [if_neg asked, if_neg asked]

-- Superseded rows and the minimum score

theorem filteredResults_sublist (ranked : List (RetrievalRankedRow K))
    : (filteredResults params ranked).Sublist ranked := by
  unfold filteredResults
  dsimp only
  split
  · split
    · exact List.filter_sublist
    · exact List.filter_sublist.trans List.filter_sublist
  · split
    · exact List.Sublist.refl _
    · exact List.filter_sublist

theorem filteredResults_perm {first second : List (RetrievalRankedRow K)}
    (same : first.Perm second)
    : (filteredResults params first).Perm (filteredResults params second) := by
  have superseded : (fun entry : RetrievalRankedRow K =>
        decide (Value.str (rowId entry.row.record) ∉ supersededIds first))
      = fun entry => decide (Value.str (rowId entry.row.record) ∉ supersededIds second) := by
    funext entry
    have alike : Value.str (rowId entry.row.record) ∈ supersededIds first
        ↔ Value.str (rowId entry.row.record) ∈ supersededIds second :=
      (same.filterMap _).mem_iff
    simp only [alike]
  unfold filteredResults
  dsimp only
  rw [superseded]
  split
  · split
    · exact same.filter _
    · exact (same.filter _).filter _
  · split
    · exact same
    · exact same.filter _

variable [FloorRing K]

-- Fused candidates

theorem hybrid_congr (agree : AgreeFor runtime db params left right)
    (mode : params.mode = .hybrid)
    : SameRanked (hybrid runtime db params left) (hybrid runtime db params right) := by
  have hits := agree.hits (by rw [mode]; decide)
  have scanned := scannedRows_perm agree.visible
  have store : Store (scannedRows runtime db params left) := scannedRows_store agree.storeLeft
  have storeRight : Store (scannedRows runtime db params right) :=
    scannedRows_store agree.storeRight
  unfold hybrid
  dsimp only
  by_cases listing : params.q = "" ∧ params.queryEmbedding = none
  · have none_hit : semanticHits runtime db params right = [] := by
      rw [semanticHits, listing.2]
      rfl
    rw [if_pos listing, if_pos listing, hits, none_hit, scanned_entries store,
      scanned_entries storeRight, List.map_map, List.map_map]
    apply SameRanked.of_perm store scanned
    intro record
    exact rowId_shown runtime params.agentId record
  · left
    rw [if_neg listing, if_neg listing, lexicalLeg_congr agree.visible, ← hits]
    apply List.filterMap_congr
    intro fused _
    rw [← allowedById_congr _ store scanned]
    cases held : (allowedById (scannedRows runtime db params left)
        (semanticHits runtime db params left)).get fused.1 with
    | none => rfl
    | some record =>
      obtain ⟨row, inside, visible, -, looked⟩ := allowed_row agree.storeLeft held
      have named : rowId row = fused.1 := by simpa using List.find?_some looked
      have found := agree.lookup_eq inside visible
      rw [named, ← looked] at found
      rw [Option.map_some, Option.map_some, fusedSimilarity_congr _ found.symm]

theorem bm25Only_congr (agree : AgreeFor runtime db params left right)
    : SameRanked (bm25Only runtime db params left) (bm25Only runtime db params right) := by
  left
  unfold bm25Only
  dsimp only
  by_cases asked : params.q ≠ ""
  · have lexical : lexicalLeg runtime params (corpus runtime db params left)
        = lexicalLeg runtime params (corpus runtime db params right) := by
      unfold lexicalLeg
      rw [if_pos asked, if_pos asked, lexicalIds_congr agree.visible]
    rw [if_pos asked, if_pos asked, lexical]
    apply List.filterMap_congr
    intro place _
    rw [allowedById_congr _ (corpus_store agree.storeLeft) (corpus_perm agree.visible)]
  · rw [if_neg asked, if_neg asked]

theorem keywordOnly_congr (agree : AgreeFor runtime db params left right)
    : SameRanked (keywordOnly runtime db params left) (keywordOnly runtime db params right) := by
  have rows_seen : ∀ rows : List Record,
      (db.search params.conditions rows).filter (keeps runtime params)
        = rows.filter (seen runtime db params) := by
    intro rows
    unfold Database.search seen
    rw [List.filter_filter]
    apply List.filter_congr
    intro row _
    exact Bool.and_comm _ _
  unfold keywordOnly
  rw [rows_seen, rows_seen]
  apply SameRanked.of_perm
  · exact agree.storeLeft.sublist ((List.filter_sublist.trans List.filter_sublist).map _)
  · exact agree.visible.filter _
  · intro row
    refine (rowId_shown runtime params.agentId _).trans ?_
    simp [rowId]

theorem results_congr (agree : AgreeFor runtime db params left right)
    : SameRanked (results runtime db params left) (results runtime db params right) := by
  unfold results
  cases mode : params.mode with
  | hybrid => exact hybrid_congr agree mode
  | bm25Only => exact bm25Only_congr agree
  | vectorOnly =>
    cases embedding : params.queryEmbedding with
    | none => exact keywordOnly_congr agree
    | some target =>
      have eligible := agree.eligible (by rw [embedding]; rfl) (by rw [mode]; decide)
      have same : vectorOnly runtime db params left target
          = vectorOnly runtime db params right target := by
        unfold vectorOnly
        rw [semanticLeg_congr agree.storeLeft agree.storeRight eligible]
      exact Or.inl same

-- The answer

theorem retrieveCandidates_congr (agree : AgreeFor runtime db params left right)
    : retrieveCandidates runtime db params left = retrieveCandidates runtime db params right := by
  unfold retrieveCandidates
  rcases results_congr agree with same | ⟨same, ids⟩
  · rw [same]
  congr 1
  refine List.Perm.eq_of_pairwise ?_ (pairwise_ordered _) (pairwise_ordered _) ?_
  · intro one other first second before after
    have inside : ∀ entry ∈ filteredResults params (results runtime db params left),
        entry ∈ results runtime db params left :=
      fun entry member => (filteredResults_sublist _).subset member
    have here := inside one ((List.perm_insertionSort _ _).mem_iff.mp first)
    have there := inside other
      ((filteredResults_perm same).mem_iff.mpr ((List.perm_insertionSort _ _).mem_iff.mp second))
    exact ids one here other there (RankedBefore.same_id before after)
  · exact (List.perm_insertionSort _ _).trans
      ((filteredResults_perm same).trans (List.perm_insertionSort _ _).symm)

def Shows (answer : RetrievedRow K) (row : Record) : Prop :=
  ∀ field ∈ defaultSelect, shownAsStored field → answer.record.get field = row.get field

theorem shows_pushed {rawScore ranking : K} {similarity key : Option K}
    (fields : ∀ field ∈ defaultSelect, record.get field = row.get field)
    : Shows (pushed runtime params record rawScore ranking similarity key).row row := by
  intro field listed plain
  exact (shownRecord_get runtime params.agentId record plain).trans (fields field listed)

variable {entry : RetrievalRankedRow K}

theorem hybrid_seen (store : Store rows) (member : entry ∈ hybrid runtime db params rows)
    : ∃ row ∈ rows, seen runtime db params row = true ∧ Shows entry.row row := by
  unfold hybrid at member
  dsimp only at member
  by_cases listing : params.q = "" ∧ params.queryEmbedding = none
  · have none_hit : semanticHits runtime db params rows = [] := by
      rw [semanticHits, listing.2]
      rfl
    rw [if_pos listing, none_hit, scanned_entries (scannedRows_store store), List.map_map] at member
    obtain ⟨record, scanned, rfl⟩ := List.mem_map.mp member
    obtain ⟨row, inside, visible, rfl⟩ := mem_corpus (mem_scannedRows scanned)
    exact ⟨row, inside, visible, shows_pushed fun field listed => selected_get row listed⟩
  · rw [if_neg listing] at member
    obtain ⟨fused, -, found⟩ := List.mem_filterMap.mp member
    obtain ⟨record, held, rfl⟩ := Option.map_eq_some_iff.mp found
    obtain ⟨row, inside, visible, rfl, -⟩ := allowed_row store held
    exact ⟨row, inside, visible, shows_pushed fun field listed => selected_get row listed⟩

theorem bm25Only_seen (store : Store rows) (member : entry ∈ bm25Only runtime db params rows)
    : ∃ row ∈ rows, seen runtime db params row = true ∧ Shows entry.row row := by
  unfold bm25Only at member
  dsimp only at member
  obtain ⟨place, -, found⟩ := List.mem_filterMap.mp member
  obtain ⟨record, held, rfl⟩ := Option.map_eq_some_iff.mp found
  have scanned : record ∈ corpus runtime db params rows := by
    split at held
    · rcases (mem_allowedById (corpus_store store) held).2 with inside | ⟨hit, inside, -⟩
      · exact inside
      · cases inside
    · cases held
  obtain ⟨row, inside, visible, rfl⟩ := mem_corpus scanned
  exact ⟨row, inside, visible, shows_pushed fun field listed => selected_get row listed⟩

theorem keywordOnly_seen (member : entry ∈ keywordOnly runtime db params rows)
    : ∃ row ∈ rows, seen runtime db params row = true ∧ Shows entry.row row := by
  unfold keywordOnly at member
  obtain ⟨row, listed, rfl⟩ := List.mem_map.mp member
  obtain ⟨found, kept⟩ := List.mem_filter.mp (List.mem_filter.mp listed).1
  obtain ⟨inside, meets⟩ := mem_search.mp found
  refine ⟨row, inside, ?_, shows_pushed ?_⟩
  · unfold seen
    rw [kept, Bool.and_true, List.all_eq_true]
    exact meets
  · intro field listed
    have apart : field ≠ "embedding" := by
      rintro rfl
      simp [defaultSelect] at listed
    rw [Record.get_delete, if_neg apart]

theorem results_seen (store : Store rows) (member : entry ∈ results runtime db params rows)
    : ∃ row ∈ rows, seen runtime db params row = true ∧ Shows entry.row row := by
  unfold results at member
  cases mode : params.mode with
  | hybrid =>
    rw [mode] at member
    exact hybrid_seen store member
  | bm25Only =>
    rw [mode] at member
    exact bm25Only_seen store member
  | vectorOnly =>
    rw [mode] at member
    cases embedding : params.queryEmbedding with
    | none =>
      rw [embedding] at member
      exact keywordOnly_seen member
    | some target =>
      rw [embedding] at member
      obtain ⟨hit, found, rfl⟩ := List.mem_map.mp member
      obtain ⟨row, listed, visible, projected⟩ := mem_semanticLeg found
      refine ⟨row, (mem_search.mp listed).1, visible, shows_pushed ?_⟩
      intro field named
      rw [projected, selected_get row named]

/-- Over two stores that agree on the rows the reader may see and, where a query embedding
is used, on the rows the vector index is asked over, a retrieval answers the same rows in the
same order with the same scores; and each of them is a stored row that meets every condition,
passes the temporal filters and is in the reader's scope, which its shown fields still are.
-/
theorem retrieval_depends_on_seen (runtime : Runtime K) (db : Database K)
    (params : RetrievalParams K) (left right : List Record) (storeLeft : Store left)
    (storeRight : Store right) (visible : SameSeen runtime db params left right)
    (eligible : params.queryEmbedding.isSome = true → params.mode ≠ .bm25Only
      → SameEligible db params left right)
    : retrieveCandidates runtime db params left = retrieveCandidates runtime db params right
      ∧ ∀ answer ∈ retrieveCandidates runtime db params left,
        passesAllowed params answer.record = true
        ∧ ∃ row ∈ left, Shows answer row ∧ passesAllowed params row = true
          ∧ (∀ condition ∈ params.conditions, db.meets condition row = true)
          ∧ passesRecordFilters runtime.engine row params.timeFilters runtime.now = true := by
  refine ⟨retrieveCandidates_congr ⟨storeLeft, storeRight, visible, eligible⟩, ?_⟩
  intro answer member
  obtain ⟨entry, listed, rfl⟩ := List.mem_map.mp member
  have found := (filteredResults_sublist _).subset ((List.perm_insertionSort _ _).mem_iff.mp listed)
  obtain ⟨row, inside, kept, shows⟩ := results_seen storeLeft found
  unfold seen keeps at kept
  rw [Bool.and_eq_true, Bool.and_eq_true, List.all_eq_true] at kept
  obtain ⟨meets, timely, allowed⟩ := kept
  have shown : passesAllowed params entry.row.record = passesAllowed params row := by
    apply passesAllowed_congr
    · exact shows _ (by simp [defaultSelect]) (by simp [shownAsStored, promotionBindingFields])
    · exact shows _ (by simp [defaultSelect]) (by simp [shownAsStored, promotionBindingFields])
  exact ⟨shown.trans allowed, row, inside, shows, allowed, meets, timely⟩

end

-- An exact index

def NearerBy (similarity : Record → Rat) (left right : Record) : Prop :=
  RanksBefore { id := rowId left, score := similarity left }
    { id := rowId right, score := similarity right }

instance (similarity : Record → Rat) : DecidableRel (NearerBy similarity) :=
  fun _ _ => inferInstanceAs (Decidable (RanksBefore _ _))

theorem pairwise_nearer (similarity : Record → Rat) (rows : List Record)
    : (rows.insertionSort (NearerBy similarity)).Pairwise (NearerBy similarity) := by
  have transitive : IsTrans Record (NearerBy similarity) := ⟨fun _ _ _ => RanksBefore.trans⟩
  have everywhere : Std.Total (NearerBy similarity) := ⟨fun _ _ => RanksBefore.total _ _⟩
  exact List.pairwise_insertionSort (NearerBy similarity) rows

theorem nearest_unordered (similarity : Record → Rat) {rows other : List Record}
    (store : Store rows) (same : rows.Perm other)
    : rows.insertionSort (NearerBy similarity) = other.insertionSort (NearerBy similarity) := by
  refine List.Perm.eq_of_pairwise ?_ (pairwise_nearer _ _) (pairwise_nearer _ _) ?_
  · intro left right first second before after
    have ids : rowId left = rowId right :=
      congrArg BM25Scored.id (RanksBefore.antisymm before after)
    have here := (List.perm_insertionSort _ _).mem_iff.mp first
    have there := same.mem_iff.mpr ((List.perm_insertionSort _ _).mem_iff.mp second)
    exact List.inj_on_of_nodup_map store here there ids
  · exact (List.perm_insertionSort _ _).trans
      (same.trans (List.perm_insertionSort _ _).symm)

def exactIndex (similarity : List Rat → Record → Rat) : VectorIndex Rat where
  nearest := fun target rows limit =>
    ((rows.insertionSort (NearerBy (similarity target))).take limit.toNat).map fun row =>
      (row, some (1 - similarity target row))
  only := by
    intro target rows limit hit member
    obtain ⟨row, listed, rfl⟩ := List.mem_map.mp member
    exact (List.perm_insertionSort _ _).mem_iff.mp (List.mem_of_mem_take listed)
  unordered := by
    intro target limit rows other store same
    rw [nearest_unordered (similarity target) store same]

def dotProduct : List Rat → List Value → Rat
  | x :: xs, .num y :: ys => x * y + dotProduct xs ys
  | _, _ => 0

def exactDatabase : Database Rat where
  meets := matchCondition
  vectors := exactIndex fun target row => dotProduct target (storedEmbedding (some row))
  trustedForms := ["space"]

def epochRuntime : Runtime Rat where
  engine := {
    dateParse := fun value =>
      if value = some (.str "1970-01-01T00:00:00.005Z") then some 5 else none
    dateTime := fun value =>
      if value = some (.str "1970-01-01T00:00:00.005Z") then some 5 else none
    string := fun value => (asString value).getD "" }
  now := 10
  cosine := dotProduct
  composite := fun ranking _ => ranking
  idf := fun _ _ => 1
  lower := id
  contentHash := fun _ => ""

def ownNote : Record :=
  Record.ofFields [
    ("id", .str "own"), ("agentId", .str "reader"), ("content", .str "note"),
    ("embedding", .arr [.num 0, .num 1]), ("embeddingModel", .str "space")]

def expiredNote : Record :=
  Record.ofFields [
    ("id", .str "past"), ("agentId", .str "reader"), ("content", .str "note"),
    ("embedding", .arr [.num 1, .num 0]), ("embeddingModel", .str "space"),
    ("expiresAt", .str "1970-01-01T00:00:00.005Z")]

def foreignNote : Record :=
  Record.ofFields [
    ("id", .str "theirs"), ("agentId", .str "other"), ("content", .str "note"),
    ("visibility", .str "private"), ("embedding", .arr [.num 1, .num 0]),
    ("embeddingModel", .str "space")]

def readerQuery (mode : RetrievalMode) (limit : Int) : RetrievalParams Rat where
  queryEmbedding := some [1, 0]
  q := "note"
  conditions := [
    .group "or" [
      .leaf "agentId" "equals" (some (.str "reader")),
      .leaf "visibility" "not_equal" (some (.str "private"))],
    .leaf "archived" "not_equal" (some (.bool true))]
  limit := limit
  extraSelect := []
  includeSuperseded := false
  scoring := .raw
  temporalBoost := 1
  timeFilters := { sinceDate := none, asOf := none }
  minScore := 0
  agentId := some (.str "reader")
  reader := some "reader"
  mode := mode
  withSemSimilarity := false

theorem foreign_note_unread
    : retrieveCandidates epochRuntime exactDatabase (readerQuery .hybrid 5) [ownNote]
        = retrieveCandidates epochRuntime exactDatabase (readerQuery .hybrid 5)
          [foreignNote, ownNote]
      ∧ ∀ answer ∈ retrieveCandidates epochRuntime exactDatabase (readerQuery .hybrid 5) [ownNote],
        passesAllowed (readerQuery .hybrid 5) answer.record = true
        ∧ ∃ row ∈ [ownNote], Shows answer row ∧ passesAllowed (readerQuery .hybrid 5) row = true
          ∧ (∀ condition ∈ (readerQuery .hybrid 5).conditions,
              exactDatabase.meets condition row = true)
          ∧ passesRecordFilters epochRuntime.engine row (readerQuery .hybrid 5).timeFilters
              epochRuntime.now = true := by
  have visible : [ownNote].filter (seen epochRuntime exactDatabase (readerQuery .hybrid 5))
      = [foreignNote, ownNote].filter
        (seen epochRuntime exactDatabase (readerQuery .hybrid 5)) := by
    decide
  have eligible : exactDatabase.search
        ((readerQuery .hybrid 5).conditions ++ [exactDatabase.trustedVectorCondition]) [ownNote]
      = exactDatabase.search
        ((readerQuery .hybrid 5).conditions ++ [exactDatabase.trustedVectorCondition])
        [foreignNote, ownNote] := by
    decide
  apply retrieval_depends_on_seen
  · unfold Store
    decide
  · unfold Store
    decide
  · unfold SameSeen
    rw [visible]
  · intro _ _
    unfold SameEligible
    rw [eligible]

/-- The limit of the vector leg is taken before the temporal filters, so an expired row that
the reader may not see takes the place of one that it may.
-/
theorem expired_row_takes_a_place
    : Store [ownNote] ∧ Store [expiredNote, ownNote]
      ∧ SameSeen epochRuntime exactDatabase (readerQuery .vectorOnly 1) [ownNote]
          [expiredNote, ownNote]
      ∧ (retrieveCandidates epochRuntime exactDatabase (readerQuery .vectorOnly 1)
          [ownNote]).map (fun answer => rowId answer.record) = ["own"]
      ∧ (retrieveCandidates epochRuntime exactDatabase (readerQuery .vectorOnly 1)
          [expiredNote, ownNote]).map (fun answer => rowId answer.record) = [] := by
  have visible : [ownNote].filter (seen epochRuntime exactDatabase (readerQuery .vectorOnly 1))
      = [expiredNote, ownNote].filter
        (seen epochRuntime exactDatabase (readerQuery .vectorOnly 1)) := by
    decide
  unfold Store SameSeen
  rw [visible]
  refine ⟨by decide, by decide, List.Perm.refl _, by decide,
    by decide +kernel⟩

end Flair.Retrieval
