import Flair.Archives.RestoreArchive
import Mathlib.Data.List.Induction

/-! What a restore selection answers: every selected entry in the order of the selection, or a
refusal that names exactly the ids that cannot be restored.
-/

namespace Flair.Archives

variable {ν : Type}

def memoryRows (archive : Json ν) : List (Json ν) :=
  match ownValue ((recordOf archive).getD []) "memories" with
  | some (.arr rows) => rows
  | _ => []

def archivedRow (archive : Json ν) (id : Units) : Option (Json ν) :=
  (memoryRows archive).find? fun row => decide (rowId row = some id)

/-- The ids that are asked for: those of the archive when the selection is omitted, and none of
a selection that is not a nonempty array of nonempty texts.
-/
def wantedIds (archive : Json ν) : Option (Json ν) → Option (List Units)
  | none => some ((memoryRows archive).filterMap rowId)
  | some (.arr items) =>
    if items ≠ [] ∧ ∀ item ∈ items, (nameOf item).isSome = true then
      some (items.filterMap nameOf)
    else none
  | some _ => none

def Unrestorable (promotionContentHash : Units → Units) (archive : Json ν) (wanted : List Units)
    (id : Units)
    : Prop :=
  id ∈ wanted ∧ (2 ≤ wanted.count id ∨ ∀ row, archivedRow archive id = some row
    → ∀ entry, validateRestoreMemoryRow promotionContentHash row ≠ .ok entry)

/-- What the validation of a selection answers: a refusal of its form, or one that names exactly
the ids that cannot be restored, no failure twice, or every entry in the order of the selection.
-/
def AnswersSelection (promotionContentHash : Units → Units) (archive : Json ν)
    (answer : Except SelectionRefusal (List (RestoreEntry ν)))
    : Option (List Units) → Prop
  | none => ∃ reason, answer = .error ⟨.invalidSelection, reason, []⟩
  | some wanted =>
    ((∃ id, Unrestorable promotionContentHash archive wanted id)
      → ∃ reason failures, answer = .error ⟨.entriesRefused, reason, failures⟩
        ∧ failures.Nodup ∧ ∀ id, id ∈ failures.map EntryFailure.id
          ↔ Unrestorable promotionContentHash archive wanted id)
    ∧ ((∀ id, ¬ Unrestorable promotionContentHash archive wanted id)
      → ∃ entries, answer = .ok entries
        ∧ List.Forall₂ (fun id entry => entry.id = id
          ∧ archivedRow archive id = some entry.row
          ∧ validateRestoreMemoryRow promotionContentHash entry.row = .ok entry)
            wanted entries)

-- The rows of a parsed archive

theorem rowId_of_shape {row : Json ν} {owned : Bool} (h : rowShapeProblem row owned = none)
    : ∃ id, rowId row = some id := by
  unfold rowShapeProblem at h
  unfold rowId
  split at h
  · cases h
  rename_i record isRecord
  split at h
  · cases h
  · rename_i id isText
    exact ⟨id, by rw [isRecord]; exact isText⟩

theorem rows_of_rowsRefusal {checks : NumberChecks ν} {key : String} {table : RestoreTable}
    {owned : Bool} {seen : InsertionMap Units Nat} {index : Nat} {rows : List (Json ν)}
    (h : rowsRefusal checks key table owned seen index rows = none)
    : (∀ row ∈ rows, rowShapeProblem row owned = none)
      ∧ (∀ id ∈ rows.filterMap rowId, InsertionMap.get seen id = none)
      ∧ (rows.filterMap rowId).Nodup := by
  induction rows generalizing seen index with
  | nil => simp
  | cons row rest ih =>
    unfold rowsRefusal at h
    dsimp only at h
    split at h
    · cases h
    rename_i noProblem
    split at h
    · cases h
    rename_i unseen
    have shape : rowShapeProblem row owned = none := by
      cases problem : rowShapeProblem row owned with
      | none => rfl
      | some _ => simp [problem] at noProblem
    obtain ⟨id, hasId⟩ := rowId_of_shape shape
    obtain ⟨shapes, fresh, distinct⟩ := ih h
    rw [hasId, Option.getD_some] at unseen fresh
    rw [List.filterMap_cons_some hasId]
    refine ⟨List.forall_mem_cons.mpr ⟨shape, shapes⟩, List.forall_mem_cons.mpr ⟨unseen, ?_⟩,
      List.nodup_cons.mpr ⟨fun member => ?_, distinct⟩⟩
    · intro other member
      have absent := fresh other member
      rw [InsertionMap.get_set] at absent
      split at absent
      · cases absent
      · exact absent
    · simpa using fresh id member

structure ArchivedRows (archive : Json ν) (rows : List (Json ν)) : Prop where
  stored : ownValue ((recordOf archive).getD []) "memories" = some (.arr rows)
  shapes : ∀ row ∈ rows, rowShapeProblem row true = none
  distinct : (rows.filterMap rowId).Nodup

theorem archivedRows_of_parsed {checks : NumberChecks ν} {archive : Json ν}
    (parsed : archiveShapeRefusal checks archive = none)
    : ArchivedRows archive (memoryRows archive) := by
  unfold archiveShapeRefusal at parsed
  split at parsed
  · cases parsed
  rename_i record isRecord
  split at parsed
  · split at parsed
    · have memories := List.findSome?_eq_none_iff.mp parsed ("memories", memoryTable, true)
        (by simp [collections])
      dsimp only at memories
      split at memories
      · rename_i rows stored
        have stored' : ownValue ((recordOf archive).getD []) "memories" = some (.arr rows) := by
          rw [isRecord]
          exact stored
        obtain ⟨shapes, -, distinct⟩ := rows_of_rowsRefusal memories
        have same : memoryRows archive = rows := by
          unfold memoryRows
          rw [stored']
        rw [same]
        exact ⟨stored', shapes, distinct⟩
      · cases memories
    · cases parsed
  · cases parsed

-- The index by id

theorem foldl_indexRow (rows : List (Json ν)) (map : InsertionMap Units (Json ν))
    (fresh : ∀ id ∈ rows.filterMap rowId, InsertionMap.get map id = none)
    (distinct : (rows.filterMap rowId).Nodup)
    : (rows.foldl indexRow (map, [])).2 = []
      ∧ ∀ id, InsertionMap.get (rows.foldl indexRow (map, [])).1 id
        = (rows.find? fun row => decide (rowId row = some id)).or (InsertionMap.get map id) := by
  induction rows generalizing map with
  | nil => simp
  | cons row rest ih =>
    rw [List.foldl_cons]
    cases hasId : rowId row with
    | none =>
      rw [List.filterMap_cons_none hasId] at fresh distinct
      simpa [indexRow, hasId] using ih map fresh distinct
    | some key =>
      rw [List.filterMap_cons_some hasId] at fresh distinct
      obtain ⟨new, others⟩ := List.forall_mem_cons.mp fresh
      obtain ⟨unlisted, distinct⟩ := List.nodup_cons.mp distinct
      have entered : indexRow (map, []) row = (InsertionMap.set map key row, []) := by
        simp [indexRow, hasId, new]
      obtain ⟨none, lookup⟩ := ih (InsertionMap.set map key row)
        (fun id member => by
          rw [InsertionMap.get_set, if_neg (fun same => unlisted (by simpa [same] using member))]
          exact others id member) distinct
      rw [entered]
      refine ⟨none, fun id => (lookup id).trans ?_⟩
      rw [InsertionMap.get_set, List.find?_cons, hasId]
      by_cases same : key = id
      · subst same
        have absent : rest.find? (fun row => decide (rowId row = some key)) = Option.none := by
          refine List.find?_eq_none.mpr fun other member found => unlisted ?_
          exact List.mem_filterMap.mpr ⟨other, member, of_decide_eq_true found⟩
        simp [absent]
      · simp [same, Ne.symm same]

-- The resolution of the ids

structure Resolves (lookup : Units → Option (Json ν)) (done : List Units)
    (resolving : Resolving ν)
    : Prop where
  selected : ∀ id, id ∈ resolving.selected ↔ id ∈ done
  named : ∀ id, id ∈ resolving.named ↔ 2 ≤ done.count id
  failures : ∀ failure, failure ∈ resolving.failures
    ↔ (∃ id ∈ done, lookup id = none ∧ failure = missingFailure id)
      ∨ ∃ id, 2 ≤ done.count id ∧ failure = selectionFailure id
  once : resolving.failures.Nodup
  rows : resolving.rows = resolving.selected.filterMap lookup
  distinct : resolving.selected.Nodup
  ordered : done.Nodup → resolving.selected = done

theorem missingFailure_ne (left right : Units) : missingFailure left ≠ selectionFailure right := by
  intro same
  cases congrArg EntryFailure.code same

theorem Resolves.step {lookup : Units → Option (Json ν)} {done : List Units}
    {resolving : Resolving ν} {index : InsertionMap Units (Json ν)}
    (h : Resolves lookup done resolving) (indexed : ∀ id, InsertionMap.get index id = lookup id)
    (id : Units)
    : Resolves lookup (done ++ [id]) (resolveId (index, []) resolving id) := by
  have counted : ∀ other, (done ++ [id]).count other
      = done.count other + if other = id then 1 else 0 := by
    intro other
    rw [List.count_append, List.count_singleton]
    by_cases same : other = id
    · rw [if_pos same, same, beq_self_eq_true, if_pos rfl]
    · rw [if_neg same, beq_false_of_ne (Ne.symm same), if_neg Bool.false_ne_true]
  unfold resolveId
  by_cases seen : id ∈ resolving.selected
  · have before := (h.selected id).mp seen
    have some : 1 ≤ done.count id := List.one_le_count_iff.mpr before
    have same : ∀ other, other ∈ done ++ [id] ↔ other ∈ done := by
      intro other
      simp only [List.mem_append, List.mem_singleton, or_iff_left_iff_imp]
      rintro rfl
      exact before
    have notDistinct : ¬ (done ++ [id]).Nodup := by
      rw [List.nodup_append]
      exact fun apart => apart.2.2 id before id (List.mem_singleton_self id) rfl
    rw [if_pos seen]
    split
    · rename_i listed
      have twice := (h.named id).mp listed
      have counts : ∀ other, 2 ≤ (done ++ [id]).count other ↔ 2 ≤ done.count other := by
        intro other
        rw [counted]
        split
        · rename_i equal
          subst equal
          omega
        · rfl
      exact ⟨fun other => (h.selected other).trans (same other).symm,
        fun other => (h.named other).trans (counts other).symm,
        fun failure => by simp only [h.failures, same, counts],
        h.once, h.rows, h.distinct, fun apart => absurd apart notDistinct⟩
    · rename_i unlisted
      have once : done.count id = 1 := by
        have few := mt (h.named id).mpr unlisted
        omega
      have counts : ∀ other, 2 ≤ (done ++ [id]).count other ↔ 2 ≤ done.count other ∨ other = id := by
        intro other
        rw [counted]
        split
        · rename_i equal
          subst equal
          simp [once]
        · rename_i other
          simp [other]
      refine ⟨fun other => (h.selected other).trans (same other).symm, fun other => ?_,
        fun failure => ?_, ?_, h.rows, h.distinct, fun apart => absurd apart notDistinct⟩
      · rw [List.mem_append, List.mem_singleton, h.named, counts]
      · simp only [List.mem_append, List.mem_singleton, h.failures, same, counts, or_and_right,
          exists_or, exists_eq_left, or_assoc]
      refine List.nodup_append.mpr ⟨h.once, List.nodup_singleton _, fun failure member other one => ?_⟩
      rintro rfl
      rw [List.mem_singleton.mp one, h.failures] at member
      rcases member with ⟨key, -, -, equal⟩ | ⟨key, twice, equal⟩
      · exact missingFailure_ne _ _ equal.symm
      · obtain rfl : id = key := congrArg EntryFailure.id equal
        omega
  · have new : id ∉ done := mt (h.selected id).mpr seen
    have never : done.count id = 0 := List.count_eq_zero.mpr new
    have counts : ∀ other, 2 ≤ (done ++ [id]).count other ↔ 2 ≤ done.count other := by
      intro other
      rw [counted]
      split
      · rename_i equal
        subst equal
        omega
      · rfl
    have selected : ∀ other, other ∈ resolving.selected ++ [id] ↔ other ∈ done ++ [id] := by
      intro other
      simp only [List.mem_append, h.selected]
    have distinct : (resolving.selected ++ [id]).Nodup :=
      List.nodup_append.mpr ⟨h.distinct, List.nodup_singleton _, fun other member last one => by
        rintro rfl
        exact seen (List.mem_singleton.mp one ▸ member)⟩
    have ordered : (done ++ [id]).Nodup → resolving.selected ++ [id] = done ++ [id] :=
      fun apart => by rw [h.ordered apart.of_append_left]
    rw [if_neg seen]
    dsimp only
    rw [indexed]
    cases found : lookup id with
    | none =>
      refine ⟨selected, fun other => (h.named other).trans (counts other).symm,
        fun failure => ?_, ?_, ?_, distinct, ordered⟩
      · simp only [List.mem_append, List.mem_singleton, h.failures, counts, or_and_right,
          exists_or, exists_eq_left, found, true_and]
        exact or_right_comm
      · refine List.nodup_append.mpr ⟨h.once, List.nodup_singleton _, fun failure member other one => ?_⟩
        rintro rfl
        rw [List.mem_singleton.mp one, h.failures] at member
        rcases member with ⟨key, earlier, -, equal⟩ | ⟨key, -, equal⟩
        · obtain rfl : id = key := congrArg EntryFailure.id equal
          exact new earlier
        · exact missingFailure_ne _ _ equal
      · rw [List.filterMap_append, ← h.rows, List.filterMap_cons_none found]
        simp
    | some row =>
      dsimp only
      rw [if_neg List.not_mem_nil]
      refine ⟨selected, fun other => (h.named other).trans (counts other).symm,
        fun failure => ?_, h.once, ?_, distinct, ordered⟩
      · simp only [List.mem_append, List.mem_singleton, h.failures, counts, or_and_right,
          exists_or, exists_eq_left, found, reduceCtorEq, false_and, or_false]
      · rw [List.filterMap_append, ← h.rows, List.filterMap_cons_some found]
        rfl

theorem resolves_foldl {lookup : Units → Option (Json ν)}
    {index : InsertionMap Units (Json ν)}
    (indexed : ∀ id, InsertionMap.get index id = lookup id) (ids : List Units)
    : Resolves lookup ids (ids.foldl (resolveId (index, [])) ⟨[], [], [], []⟩) := by
  induction ids using List.reverseRecOn with
  | nil => exact ⟨by simp, by simp, by simp, .nil, rfl, .nil, fun _ => rfl⟩
  | append_singleton done id ih =>
    rw [List.foldl_append]
    exact ih.step indexed id

-- The failures of a row

def verdictKeys (field : String) : List (FailureCode × Option String) :=
  [(.invalidVerdictField, some field), (.verdictWithoutStatus, some field),
    (.approvedVerdictIncomplete, some field)]

def hashKey (code : FailureCode) : List (FailureCode × Option String) :=
  [(code, some "promotionContentHash")]

def admissionKeys : List (FailureCode × Option String) :=
  [(.contentNotString, some "content")]
    ++ ([(.undeclaredPromotionStatus, some "promotionStatus")]
    ++ (verdictKeys "promotedAt" ++ (verdictKeys "promotedBy"
    ++ (hashKey .invalidBindingHash ++ hashKey .hashWithoutVerdict
      ++ hashKey .bindingMismatch))))

structure RowFailures (id : Units) (keys : List (FailureCode × Option String))
    (failures : List EntryFailure)
    : Prop where
  named : ∀ failure ∈ failures, failure.id = id
  keys : (failures.map fun failure => (failure.code, failure.field)).Sublist keys

theorem RowFailures.append {id : Units} {keys others : List (FailureCode × Option String)}
    {front back : List EntryFailure} (h : RowFailures id keys front)
    (more : RowFailures id others back)
    : RowFailures id (keys ++ others) (front ++ back) :=
  ⟨List.forall_mem_append.mpr ⟨h.named, more.named⟩, by
    rw [List.map_append]
    exact h.keys.append more.keys⟩

theorem RowFailures.unless {id : Units} {code : FailureCode} {reason : String}
    {field : Option String} (c : Prop) [Decidable c]
    : RowFailures id [(code, field)] (if c then [] else [⟨id, code, reason, field⟩]) := by
  split
  · exact ⟨by simp, by simp⟩
  · exact ⟨by simp, by simp⟩

theorem RowFailures.when {id : Units} {code : FailureCode} {reason : String}
    {field : Option String} (c : Prop) [Decidable c]
    : RowFailures id [(code, field)] (if c then [⟨id, code, reason, field⟩] else []) := by
  split
  · exact ⟨by simp, by simp⟩
  · exact ⟨by simp, by simp⟩

theorem rowFailures_verdict (id : Units) (status value : Option (Json ν)) (field : String)
    : RowFailures id (verdictKeys field) (verdictFailures id status value field) := by
  unfold verdictFailures verdictKeys
  dsimp only
  repeat' split
  all_goals exact ⟨by simp, by simp⟩

theorem rowFailures_admission (promotionContentHash : Units → Units) (id : Units)
    (record : List (Units × Json ν))
    : RowFailures id admissionKeys (admissionFailures promotionContentHash id record) := by
  refine (RowFailures.unless _).append ((RowFailures.unless _).append
    ((rowFailures_verdict _ _ _ _).append ((rowFailures_verdict _ _ _ _).append ?_)))
  unfold hashFailures
  dsimp only
  split
  · exact ⟨by simp, by simp⟩
  · exact ((RowFailures.unless _).append (RowFailures.when _)).append (RowFailures.when _)

def selectionCodes : List FailureCode := [.notInArchive, .duplicateSelection]

theorem validateRestoreMemoryRow_cases (promotionContentHash : Units → Units) (row : Json ν)
    : (∃ entry, validateRestoreMemoryRow promotionContentHash row = .ok entry
        ∧ entry.row = row ∧ entry.id = (rowId row).getD [])
      ∨ ∃ failures, validateRestoreMemoryRow promotionContentHash row = .error failures
        ∧ failures ≠ [] ∧ failures.Nodup
        ∧ ∀ failure ∈ failures, failure.id = (rowId row).getD [] ∧ failure.code ∉ selectionCodes := by
  unfold validateRestoreMemoryRow
  dsimp only
  split
  · exact .inr ⟨_, rfl, by simp, List.nodup_singleton _, by simp [selectionCodes]⟩
  obtain ⟨named, keys⟩ := rowFailures_admission promotionContentHash ((rowId row).getD [])
    ((recordOf row).getD [])
  split
  · exact .inl ⟨_, rfl, rfl, rfl⟩
  rename_i some
  have distinct : admissionKeys.Nodup := by decide
  have apart : ∀ key ∈ admissionKeys, key.1 ∉ selectionCodes := by decide
  exact .inr ⟨_, rfl, some, .of_map _ (distinct.sublist keys), fun failure member =>
    ⟨named failure member, apart _ (keys.subset (List.mem_map_of_mem member))⟩⟩

-- The rows that are selected

theorem archivedRow_iff {archive : Json ν} (h : ArchivedRows archive (memoryRows archive))
    {id : Units} {row : Json ν}
    : archivedRow archive id = some row ↔ row ∈ memoryRows archive ∧ rowId row = some id := by
  unfold archivedRow
  have distinct := h.distinct
  generalize memoryRows archive = rows at distinct
  constructor
  · intro found
    have hasId := List.find?_some found
    exact ⟨List.mem_of_find?_eq_some found, of_decide_eq_true hasId⟩
  · rintro ⟨member, hasId⟩
    induction rows with
    | nil => cases member
    | cons first rest ih =>
      rw [List.find?_cons]
      rcases List.mem_cons.mp member with rfl | later
      · simp [hasId]
      have apart : rowId first ≠ some id := by
        intro same
        rw [List.filterMap_cons_some same] at distinct
        exact (List.nodup_cons.mp distinct).1 (List.mem_filterMap.mpr ⟨row, later, hasId⟩)
      rw [decide_eq_false apart]
      refine ih ?_ later
      exact distinct.sublist ((List.sublist_cons_self _ _).filterMap _)

/-- What resolving the wanted ids gives: the failures of those that stand for no one row, and
the rows of the others.
-/
structure Selected (archive : Json ν) (wanted : List Units) (rows : List (Json ν))
    (failures : List EntryFailure)
    : Prop where
  once : failures.Nodup
  named : ∀ id, id ∈ failures.map EntryFailure.id
    ↔ id ∈ wanted ∧ (2 ≤ wanted.count id ∨ archivedRow archive id = none)
  codes : ∀ failure ∈ failures, failure.code ∈ selectionCodes
  member_iff : ∀ row, row ∈ rows ↔ ∃ id ∈ wanted, archivedRow archive id = some row
  distinct : (rows.filterMap rowId).Nodup
  ordered : failures = []
    → List.Forall₂ (fun id row => archivedRow archive id = some row) wanted rows

theorem selected_all {archive : Json ν} (h : ArchivedRows archive (memoryRows archive))
    : Selected archive ((memoryRows archive).filterMap rowId) (memoryRows archive) [] := by
  have found : ∀ row ∈ memoryRows archive, ∃ id, rowId row = some id
      ∧ archivedRow archive id = some row := by
    intro row member
    obtain ⟨id, hasId⟩ := rowId_of_shape (h.shapes row member)
    exact ⟨id, hasId, (archivedRow_iff h).mpr ⟨member, hasId⟩⟩
  refine ⟨.nil, fun id => ⟨fun member => by simp at member, ?_⟩, by simp, fun row => ?_, h.distinct,
    fun _ => ?_⟩
  · rintro ⟨wanted, twice | missing⟩
    · rw [List.count_eq_one_of_mem h.distinct wanted] at twice
      omega
    · obtain ⟨row, member, hasId⟩ := List.mem_filterMap.mp wanted
      rw [(archivedRow_iff h).mpr ⟨member, hasId⟩] at missing
      cases missing
  · constructor
    · intro member
      obtain ⟨id, hasId, archived⟩ := found row member
      exact ⟨id, List.mem_filterMap.mpr ⟨row, member, hasId⟩, archived⟩
    · rintro ⟨id, -, archived⟩
      exact ((archivedRow_iff h).mp archived).1
  · generalize memoryRows archive = rows at found
    induction rows with
    | nil => exact .nil
    | cons row rest ih =>
      obtain ⟨⟨id, hasId, archived⟩, others⟩ := List.forall_mem_cons.mp found
      rw [List.filterMap_cons_some hasId]
      exact .cons archived (ih others)

theorem Resolves.selects {archive : Json ν} (h : ArchivedRows archive (memoryRows archive))
    {wanted : List Units} {resolving : Resolving ν}
    (resolved : Resolves (archivedRow archive) wanted resolving)
    : Selected archive wanted resolving.rows resolving.failures := by
  have own : ∀ id row, archivedRow archive id = some row → rowId row = some id :=
    fun id row archived => ((archivedRow_iff h).mp archived).2
  refine ⟨resolved.once, fun id => ?_, fun failure member => ?_, fun row => ?_, ?_, fun none => ?_⟩
  · constructor
    · intro listed
      obtain ⟨failure, member, rfl⟩ := List.mem_map.mp listed
      rcases (resolved.failures failure).mp member with ⟨id, wants, missing, rfl⟩ | ⟨id, twice, rfl⟩
      · exact ⟨wants, .inr missing⟩
      · exact ⟨List.one_le_count_iff.mp (Nat.le_of_succ_le twice), .inl twice⟩
    · rintro ⟨wants, twice | missing⟩
      · exact List.mem_map.mpr
          ⟨selectionFailure id, (resolved.failures _).mpr (.inr ⟨id, twice, rfl⟩), rfl⟩
      · exact List.mem_map.mpr
          ⟨missingFailure id, (resolved.failures _).mpr (.inl ⟨id, wants, missing, rfl⟩), rfl⟩
  · rcases (resolved.failures failure).mp member with ⟨id, -, -, rfl⟩ | ⟨id, -, rfl⟩
    · exact List.mem_cons_self
    · exact .tail _ List.mem_cons_self
  · rw [resolved.rows, List.mem_filterMap]
    simp only [resolved.selected]
  · rw [resolved.rows, List.filterMap_filterMap]
    refine resolved.distinct.filterMap fun left right id fromLeft fromRight => ?_
    obtain ⟨row, archived, hasId⟩ := Option.bind_eq_some_iff.mp fromLeft
    obtain ⟨other, also, hasIdToo⟩ := Option.bind_eq_some_iff.mp fromRight
    rw [own _ _ archived] at hasId
    rw [own _ _ also] at hasIdToo
    exact Option.some.inj (hasId.trans hasIdToo.symm)
  · have distinct : wanted.Nodup := by
      refine List.nodup_iff_count_le_one.mpr fun id => Nat.le_of_lt_succ (Nat.lt_of_not_le ?_)
      intro twice
      have failed := (resolved.failures _).mpr (.inr ⟨id, twice, rfl⟩)
      rw [none] at failed
      cases failed
    have found : ∀ id ∈ wanted, ∃ row, archivedRow archive id = some row := by
      intro id wants
      cases archived : archivedRow archive id with
      | some row => exact ⟨row, rfl⟩
      | none =>
        have failed := (resolved.failures _).mpr (.inl ⟨id, wants, archived, rfl⟩)
        rw [none] at failed
        cases failed
    rw [resolved.rows, resolved.ordered distinct]
    clear resolved distinct
    induction wanted with
    | nil => exact .nil
    | cons id rest ih =>
      obtain ⟨⟨row, archived⟩, others⟩ := List.forall_mem_cons.mp found
      rw [List.filterMap_cons_some archived]
      exact .cons archived (ih others)

theorem resolveSelection_spec {archive : Json ν}
    (h : ArchivedRows archive (memoryRows archive)) (ids : Option (Json ν))
    : match wantedIds archive ids with
      | none => ∃ reason, resolveSelection archive ids = selectionRefusal reason
      | some wanted => ∃ rows failures, resolveSelection archive ids = .ok (rows, failures)
        ∧ Selected archive wanted rows failures := by
  obtain ⟨none, lookup⟩ := foldl_indexRow (memoryRows archive) [] (by simp) h.distinct
  unfold resolveSelection
  rw [h.stored]
  dsimp only
  unfold wantedIds
  cases ids with
  | none => exact ⟨_, _, by rw [none]; rfl, selected_all h⟩
  | some ids =>
    cases ids with
    | arr items =>
      cases items with
      | nil => exact ⟨_, rfl⟩
      | cons item rest =>
        dsimp only
        by_cases all : ∀ other ∈ item :: rest, (nameOf other).isSome = true
        · have noFault : (item :: rest).findIdx? (fun item => (nameOf item).isNone)
              = Option.none := by
            refine List.findIdx?_eq_none_iff.mpr fun other member => ?_
            simpa using all other member
          rw [if_pos ⟨List.cons_ne_nil _ _, all⟩, noFault]
          have indexed : ((memoryRows archive).foldl indexRow ([], []))
              = (((memoryRows archive).foldl indexRow ([], [])).1, []) := Prod.ext rfl none
          dsimp only
          rw [indexed]
          refine ⟨_, _, rfl, (resolves_foldl (fun id => ?_) _).selects h⟩
          rw [lookup]
          exact Option.or_none
        · rw [if_neg (fun both => all both.2)]
          cases position : (item :: rest).findIdx? fun item => (nameOf item).isNone with
          | some position => exact ⟨_, rfl⟩
          | none =>
            have noFault := List.findIdx?_eq_none_iff.mp position
            exact absurd (fun other member => by simpa using noFault other member) all
    | _ => exact ⟨_, rfl⟩

variable (promotionContentHash : Units → Units)

theorem failures_of_rows {archive : Json ν} (h : ArchivedRows archive (memoryRows archive))
    {wanted : List Units} {rows : List (Json ν)} {failures : List EntryFailure}
    (selected : Selected archive wanted rows failures)
    : ((rows.map (validateRestoreMemoryRow promotionContentHash)).flatMap failuresOf).Nodup
      ∧ ∀ failure ∈ (rows.map (validateRestoreMemoryRow promotionContentHash)).flatMap failuresOf,
        failure.code ∉ selectionCodes
          ∧ Unrestorable promotionContentHash archive wanted failure.id := by
  rw [List.flatMap_map]
  have one : ∀ row ∈ rows, ∃ id ∈ wanted, archivedRow archive id = some row
      ∧ rowId row = some id := by
    intro row member
    obtain ⟨id, wants, archived⟩ := (selected.member_iff row).mp member
    exact ⟨id, wants, archived, ((archivedRow_iff h).mp archived).2⟩
  have named : ∀ row : Json ν, ∀ failure ∈ failuresOf (validateRestoreMemoryRow promotionContentHash row),
      failure.id = (rowId row).getD [] ∧ failure.code ∉ selectionCodes
        ∧ ∀ entry, validateRestoreMemoryRow promotionContentHash row ≠ .ok entry := by
    intro row failure member
    rcases validateRestoreMemoryRow_cases promotionContentHash row with
      ⟨entry, valid, -, -⟩ | ⟨found, invalid, -, -, named⟩
    · rw [valid] at member
      cases member
    rw [invalid] at member
    obtain ⟨id, code⟩ := named failure member
    refine ⟨id, code, fun entry valid => ?_⟩
    rw [invalid] at valid
    cases valid
  constructor
  · refine List.nodup_flatMap.mpr ⟨fun row _ => ?_, ?_⟩
    · rcases validateRestoreMemoryRow_cases promotionContentHash row with
        ⟨entry, valid, -, -⟩ | ⟨found, invalid, -, once, -⟩
      · rw [valid]
        exact .nil
      · rw [invalid]
        exact once
    · refine (List.pairwise_filterMap.mp selected.distinct).imp_of_mem ?_
      intro left right inLeft inRight apart failure ofLeft ofRight
      obtain ⟨id, -, -, leftId⟩ := one left inLeft
      obtain ⟨other, -, -, rightId⟩ := one right inRight
      refine apart id leftId other rightId ?_
      have same := (named left failure ofLeft).1.symm.trans (named right failure ofRight).1
      rwa [leftId, rightId] at same
  · intro failure member
    obtain ⟨row, inRows, member⟩ := List.mem_flatMap.mp member
    obtain ⟨id, wants, archived, hasId⟩ := one row inRows
    obtain ⟨same, code, invalid⟩ := named row failure member
    rw [hasId, Option.getD_some] at same
    subst same
    refine ⟨code, wants, .inr fun other also => ?_⟩
    cases archived.symm.trans also
    exact invalid

theorem named_iff_unrestorable {archive : Json ν}
    (h : ArchivedRows archive (memoryRows archive)) {wanted : List Units}
    {rows : List (Json ν)} {failures : List EntryFailure}
    (selected : Selected archive wanted rows failures) (id : Units)
    : id ∈ (failures
        ++ (rows.map (validateRestoreMemoryRow promotionContentHash)).flatMap failuresOf).map
          EntryFailure.id
      ↔ Unrestorable promotionContentHash archive wanted id := by
  rw [List.map_append, List.mem_append, selected.named]
  constructor
  · rintro (⟨wants, twice | missing⟩ | listed)
    · exact ⟨wants, .inl twice⟩
    · refine ⟨wants, .inr fun row archived => ?_⟩
      rw [missing] at archived
      cases archived
    · obtain ⟨failure, member, rfl⟩ := List.mem_map.mp listed
      exact ((failures_of_rows promotionContentHash h selected).2 failure member).2
  · rintro ⟨wants, twice | invalid⟩
    · exact .inl ⟨wants, .inl twice⟩
    cases archived : archivedRow archive id with
    | none => exact .inl ⟨wants, .inr rfl⟩
    | some row =>
      rcases validateRestoreMemoryRow_cases promotionContentHash row with
        ⟨entry, valid, -, -⟩ | ⟨found, refused, some, -, named⟩
      · exact absurd valid (invalid row archived entry)
      obtain ⟨failure, member⟩ := List.exists_mem_of_ne_nil _ some
      have hasId := (named failure member).1
      rw [((archivedRow_iff h).mp archived).2, Option.getD_some] at hasId
      refine .inr (List.mem_map.mpr ⟨failure, ?_, hasId⟩)
      rw [List.flatMap_map]
      refine List.mem_flatMap.mpr ⟨row, (selected.member_iff row).mpr ⟨id, wants, archived⟩, ?_⟩
      rw [refused]
      exact member

theorem entries_of_rows {archive : Json ν} (h : ArchivedRows archive (memoryRows archive))
    {wanted : List Units} {rows : List (Json ν)}
    (ordered : List.Forall₂ (fun id row => archivedRow archive id = some row) wanted rows)
    (valid : (rows.map (validateRestoreMemoryRow promotionContentHash)).flatMap failuresOf = [])
    : List.Forall₂ (fun id entry => entry.id = id ∧ archivedRow archive id = some entry.row
        ∧ validateRestoreMemoryRow promotionContentHash entry.row = .ok entry)
      wanted ((rows.map (validateRestoreMemoryRow promotionContentHash)).filterMap
        Except.toOption) := by
  induction ordered with
  | nil => exact .nil
  | @cons id row wanted rows archived _ ih =>
    rw [List.map_cons, List.flatMap_cons, List.append_eq_nil_iff] at valid
    rcases validateRestoreMemoryRow_cases promotionContentHash row with
      ⟨entry, accepted, rfl, hasId⟩ | ⟨found, refused, some, -, -⟩
    · rw [((archivedRow_iff h).mp archived).2, Option.getD_some] at hasId
      rw [List.map_cons, @List.filterMap_cons_some _ _ _ _ _ entry (by rw [accepted]; rfl)]
      exact .cons ⟨hasId, archived, accepted⟩ (ih valid.2)
    · rw [refused] at valid
      exact absurd valid.1 some

theorem answers_validateRestoreSelection {archive : Json ν}
    (h : ArchivedRows archive (memoryRows archive)) (ids : Option (Json ν))
    : AnswersSelection promotionContentHash archive
        (validateRestoreSelection promotionContentHash archive ids) (wantedIds archive ids) := by
  have resolved := resolveSelection_spec h ids
  unfold validateRestoreSelection
  cases wants : wantedIds archive ids with
  | none =>
    rw [wants] at resolved
    obtain ⟨reason, refused⟩ := resolved
    exact ⟨reason, by rw [refused]; rfl⟩
  | some wanted =>
    rw [wants] at resolved
    obtain ⟨rows, failures, resolved, selected⟩ := resolved
    rw [resolved]
    dsimp only
    have named := named_iff_unrestorable promotionContentHash h selected
    obtain ⟨once, ofRows⟩ := failures_of_rows promotionContentHash h selected
    constructor
    · rintro ⟨id, unrestorable⟩
      rw [if_neg fun none => by simpa [none] using (named id).mpr unrestorable]
      refine ⟨_, _, rfl, List.nodup_append.mpr ⟨selected.once, once, ?_⟩, named⟩
      rintro failure ofIds other ofRow rfl
      exact (ofRows failure ofRow).1 (selected.codes failure ofIds)
    · intro restorable
      have none := List.map_eq_nil_iff.mp (List.eq_nil_iff_forall_not_mem.mpr fun id member =>
        restorable id ((named id).mp member))
      obtain ⟨noFailures, valid⟩ := List.append_eq_nil_iff.mp none
      rw [if_pos none]
      exact ⟨_, rfl, entries_of_rows promotionContentHash h (selected.ordered noFailures) valid⟩

/-- Decoding accepts the well-formed texts and otherwise points at the first byte after which
nothing well formed can follow; a selection of a parsed archive is answered whole.
-/
theorem restore_admission_exact (bytes : List Nat) (checks : NumberChecks ν) (archive : Json ν)
    (ids : Option (Json ν)) (parsed : archiveShapeRefusal checks archive = none)
    : ((∃ text, decodeStrictUtf8 bytes = .ok text) ↔ WellFormedUtf8 bytes)
      ∧ FirstRefused bytes (illFormedUtf8Offset bytes)
      ∧ AnswersSelection promotionContentHash archive
        (validateRestoreSelection promotionContentHash archive ids) (wantedIds archive ids) := by
  refine ⟨?_, illFormedUtf8Offset_spec bytes,
    answers_validateRestoreSelection _ (archivedRows_of_parsed parsed) ids⟩
  rw [← isSome_strictDecode]
  unfold decodeStrictUtf8
  cases strictDecode bytes <;> simp

/-- Three memories, the last with a verdict's time and author and no status. -/
def threeMemories : Json Unit :=
  let row (id : String) (more : List (Units × Json Unit)) : Json Unit := .obj
    ([(ascii "id", .str (ascii id)), (ascii "agentId", .str (ascii "ann")),
      (ascii "content", .str (ascii "text"))] ++ more)
  .obj [(ascii "version", .num ()), (ascii "agents", .arr []), (ascii "souls", .arr []),
    (ascii "memories", .arr [row "a" [], row "b" [],
      row "c" [(ascii "promotedAt", .str (ascii "now")), (ascii "promotedBy", .str (ascii "ann"))]])]

def anyNumber : NumberChecks Unit := ⟨fun _ => true, fun _ => true, fun _ => true⟩

theorem threeMemories_admitted
    : ((∃ text, decodeStrictUtf8 [0xe2, 0x28] = .ok text) ↔ WellFormedUtf8 [0xe2, 0x28])
      ∧ FirstRefused [0xe2, 0x28] (illFormedUtf8Offset [0xe2, 0x28])
      ∧ AnswersSelection id threeMemories (validateRestoreSelection id threeMemories none)
        (wantedIds threeMemories none) :=
  restore_admission_exact id [0xe2, 0x28] anyNumber threeMemories none (by decide)

/-- The offset can lie inside an ill-formed sequence, the entries come in the order of the
selection, and an id can be named by two failures.
-/
theorem restore_admission_reorders
    : ¬ (∀ bytes, ¬ WellFormedUtf8 bytes → WellFormedUtf8 (bytes.take (illFormedUtf8Offset bytes)))
      ∧ ¬ (∀ (archive : Json Unit) ids entries, archiveShapeRefusal anyNumber archive = none
        → validateRestoreSelection id archive ids = .ok entries
        → (entries.map RestoreEntry.id).Sublist ((memoryRows archive).filterMap rowId))
      ∧ ¬ (∀ (archive : Json Unit) ids refusal, archiveShapeRefusal anyNumber archive = none
        → validateRestoreSelection id archive ids = .error refusal
        → (refusal.failures.map EntryFailure.id).Nodup) := by
  refine ⟨fun all => ?_, fun all => ?_, fun all => ?_⟩
  · have offset : illFormedUtf8Offset [0xe2, 0x28] = 1 := by
      have whole : acceptsPrefix [0xe2, 0x28] 2 = false := by decide
      have one : acceptsPrefix [0xe2, 0x28] 1 = true := by decide
      simp [illFormedUtf8Offset, boundary, whole, one]
    have front := all [0xe2, 0x28] (by rw [← isSome_strictDecode]; decide)
    rw [offset, ← isSome_strictDecode] at front
    revert front
    decide
  · have reversed := all threeMemories (some (.arr [.str (ascii "b"), .str (ascii "a")])) _
      (by decide) rfl
    revert reversed
    decide
  · have named := all threeMemories none _ (by decide) rfl
    revert named
    decide

-- The bytes of an archive

theorem parseStrictJson_ok_iff (toNumber : Units → ν) (text : Units) (value : Json ν)
    : parseStrictJson toNumber text = .ok value ↔ JsonParses toNumber text value true := by
  constructor
  · intro accepts
    obtain ⟨inner, read, rest, before, phrase, goes⟩ := (accepted value text).value [] accepts
    obtain ⟨after, rfl⟩ := end_of_run goes
    exact ⟨inner, rest, before, phrase, after⟩
  · rintro ⟨inner, rest, before, phrase, after⟩
    have follows := after.follows (by simp [Follows])
    exact ((phrase.passes follows text [] before).goesOn rfl).trans (run_end after)

/-- Bytes are read as an archive exactly when they spell a JSON document without repeated keys
that has its shape, and each kind of refusal names the stage that fails.
-/
theorem restore_archive_read_exact (checks : NumberChecks ν) (toNumber : Units → ν)
    (bytes : List Nat)
    : let read := parseRestoreArchive checks toNumber bytes
      let Spells text archive := strictDecode bytes = some text
        ∧ JsonParses toNumber text archive true
      (∀ archive, read = .ok archive
        ↔ ∃ text, Spells text archive ∧ archiveShapeRefusal checks archive = none)
      ∧ (∀ refusal, read = .error (.shape refusal)
        ↔ ∃ text archive, Spells text archive ∧ archiveShapeRefusal checks archive = some refusal)
      ∧ ((∃ refusal offset, read = .error (.json refusal offset))
        ↔ WellFormedUtf8 bytes ∧ ¬ ∃ text archive, Spells text archive)
      ∧ ((∃ refusal, read = .error (.utf8 refusal)) ↔ ¬ WellFormedUtf8 bytes) := by
  simp only [← isSome_strictDecode, ← parseStrictJson_ok_iff, parseRestoreArchive,
    decodeStrictUtf8]
  cases strictDecode bytes with
  | none => simp
  | some text =>
    cases parsed : parseStrictJson toNumber text with
    | error refusal => simp [parsed]
    | ok archive => cases shape : archiveShapeRefusal checks archive <;> simp [parsed, shape]

end Flair.Archives
