import Flair.Foundations.Objects

/-! Stored rows, their identity and the check that a committed row shows a write.
Follows `resources/write-back.ts`.
-/

namespace Flair.WriteBack

open Dynamic

/-- `String(value)` for the kinds a row id takes: a string, an integer, or nothing. -/
def idText : Option Value → String
  | none => "undefined"
  | some .null => "null"
  | some (.bool flag) => if flag then "true" else "false"
  | some (.num amount) => if amount.den = 1 then toString amount.num else toString amount
  | some (.str text) => text
  | some (.arr _) => "[object Array]"
  | some (.obj _) => "[object Object]"

/-- `WRITE_BACK_IDENTITY_FIELDS`: the fields that name the stored row. -/
def identityFields : List String := ["id", "agentId", "instanceToken", "contentHash", "createdAt"]

/-- `sameStoredRow`: is `row` still the stored row `basis` describes? -/
def sameStoredRow : (row basis : Option Record) → Bool
  | none, basis => basis.isNone
  | some _, none => false
  | some row, some basis =>
    decide (idText (row.get "id") = idText (basis.get "id"))
    && strictEquals (row.get "agentId") (basis.get "agentId")
    && strictEquals (row.get "instanceToken") (basis.get "instanceToken")
    && strictEquals (row.get "contentHash") (basis.get "contentHash")
    && strictEquals (row.get "createdAt") (basis.get "createdAt")

def harperManagedFields : List String := ["__createdtime__", "__updatedtime__"]

/-- `withoutHarperManagedFields`: the application fields of a stored row. -/
def withoutHarperManagedFields (row : Record) : Record :=
  harperManagedFields.foldl Record.delete row

/-- How a plan's write is recognised after its commit: a plan that may be repeated needs no
more than its values, any other plan names the field that carries the attempt's own id.
-/
inductive Evidence where
  | idempotent
  | marker (commitMarkerField : String)
deriving DecidableEq

/-- What the `plan` callback decides for the row it was handed. -/
inductive Plan where
  | write (row : Record) (evidence : Evidence)
  | update (patch : Record) (evidence : Evidence)
  | skip (reason : Option String)
deriving DecidableEq

namespace Plan

def idempotent : Plan → Bool
  | .write _ (.marker _) | .update _ (.marker _) => false
  | _ => true

def values : Plan → Record
  | .write row _ => row
  | .update patch _ => patch
  | .skip _ => ∅

def markerField : Plan → Option String
  | .write _ (.marker field) | .update _ (.marker field) => some field
  | _ => none

def writes : Plan → Bool
  | .skip _ => false
  | _ => true

def staged (plan : Plan) (writeId : String) : Record :=
  match plan.markerField with
  | none => plan.values
  | some field => plan.values.set field (.str writeId)

/-- What the store holds once the staged values land over `stored`: a `put` replaces the
row, an incremental `update` merges its fields into it.
-/
def landed (plan : Plan) (writeId : String) (stored : Option Record) : Option Record :=
  match plan with
  | .write _ _ => some (plan.staged writeId)
  | .update _ _ => some ((stored.getD ∅).assign (plan.staged writeId))
  | .skip _ => stored

end Plan

/-- The marker test of `committedShowsWrite`: a plan with a commit marker is confirmed by
this attempt's id, not by equal values.
-/
def markerShown (committed : Option Record) (plan : Plan) (writeId : String) : Bool :=
  match plan.markerField with
  | none => true
  | some field => decide (committed.bind (fun row => row.get field) = some (.str writeId))

/-- Every planned field holds its planned value in the committed row, the commit marker and
the excepted fields left aside.
-/
def showsValues (committed : Option Record) (plan : Plan) (except : List String) : Bool :=
  decide (∀ field ∈ plan.values.fields,
    field ∈ except ∨ plan.markerField = some field
      ∨ committed.bind (fun row => row.get field) = plan.values.get field)

def updatedIdentity (basis : Option Record) (patch : Record) : Option Record :=
  basis.map fun row =>
    identityFields.foldl
      (fun identity field =>
        match patch.get field with
        | none => identity
        | some value => identity.set field value)
      row

/-- `committedShowsWrite`: does the committed row show this attempt's write? -/
def committedShowsWrite (committed basis : Option Record) (plan : Plan) (writeId : String)
    : Bool :=
  match plan with
  | .skip _ => true
  | .update patch _ =>
    markerShown committed plan writeId
    && sameStoredRow committed (updatedIdentity basis patch)
    && showsValues committed plan []
  | .write row _ =>
    markerShown committed plan writeId
    && sameStoredRow committed (some row)
    && showsValues committed plan harperManagedFields
    && decide (∀ field ∈ (committed.getD ∅).fields,
        field ∈ harperManagedFields ∨ row.has field = true ∨ plan.markerField = some field)

/-- `committedShowsFields`: the committed row is still the row `identity` names and every
named field holds its staged value.
-/
def committedShowsFields (committed identity : Option Record) (fields : Record) : Bool :=
  sameStoredRow committed identity
  && decide (∀ field ∈ fields.fields,
      committed.bind (fun row => row.get field) = fields.get field)

inductive CommittedWriteVerdict where
  | shown
  | mismatch
  | unreadable
deriving DecidableEq

/-- `verifyCommittedFields` on a fresh committed read; `none` is a read that failed. -/
def verifyCommittedFields (read : Option (Option Record)) (identity : Option Record)
    (fields : Record)
    : CommittedWriteVerdict :=
  match read with
  | none => .unreadable
  | some none => .mismatch
  | some (some committed) =>
    if committedShowsFields (some committed) identity fields then .shown else .mismatch

theorem get_of_committedShowsFields {committed : Record} {identity : Option Record}
    {fields : Record} {field : String} {value : Value}
    (shown : committedShowsFields (some committed) identity fields = true)
    (staged : fields.get field = some value)
    : committed.get field = some value := by
  simp only [committedShowsFields, Bool.and_eq_true, decide_eq_true_eq] at shown
  have written : field ∈ fields.fields :=
    Record.mem_fields.mpr (Record.has_iff.mpr ⟨value, staged⟩)
  exact (shown.2 field written).trans staged

theorem committedShowsFields_of_verify {committed : Record} {identity : Option Record}
    {fields : Record}
    (shown : verifyCommittedFields (some (some committed)) identity fields = .shown)
    : committedShowsFields (some committed) identity fields = true := by
  by_contra hidden
  simp [verifyCommittedFields, hidden] at shown

-- Row identity

/-- Two rows with the same identity agree on every identity field: on the id as text, on
the others as values.
-/
structure SameIdentity (left right : Record) : Prop where
  id : idText (left.get "id") = idText (right.get "id")
  rest : ∀ field ∈ identityFields, field ≠ "id" → left.get field = right.get field

theorem SameIdentity.of_sameStoredRow {left right : Record}
    (h : sameStoredRow (some left) (some right) = true)
    : SameIdentity left right := by
  simp only [sameStoredRow, Bool.and_eq_true, decide_eq_true_eq] at h
  obtain ⟨⟨⟨⟨id, agent⟩, token⟩, hash⟩, created⟩ := h
  refine ⟨id, ?_⟩
  intro field member different
  simp only [identityFields, List.mem_cons, List.not_mem_nil, or_false] at member
  rcases member with rfl | rfl | rfl | rfl | rfl
  · exact absurd rfl different
  · exact eq_of_strictEquals agent
  · exact eq_of_strictEquals token
  · exact eq_of_strictEquals hash
  · exact eq_of_strictEquals created

theorem SameIdentity.trans {left middle right : Record} (first : SameIdentity left middle)
    (second : SameIdentity middle right)
    : SameIdentity left right :=
  ⟨first.id.trans second.id, fun field member different =>
    (first.rest field member different).trans (second.rest field member different)⟩

theorem SameIdentity.assign {left right : Record} (h : SameIdentity left right)
    (patch : Record)
    : SameIdentity (left.assign patch) (right.assign patch) := by
  constructor
  · simp only [Record.get_assign]
    cases patch.get "id" with
    | none => simpa using h.id
    | some value => simp
  · intro field member different
    simp only [Record.get_assign, h.rest field member different]

theorem updatedIdentity_sameIdentity (basis patch : Record)
    : ∃ identity, updatedIdentity (some basis) patch = some identity
        ∧ SameIdentity identity (basis.assign patch) := by
  refine ⟨_, rfl, ?_⟩
  have step (identity : Record) (written field : String)
      : (match patch.get written with
          | none => identity
          | some value => identity.set written value).get field
        = if field = written then (patch.get field).or (identity.get field)
          else identity.get field := by
    cases found : patch.get written with
    | none =>
      by_cases same : field = written
      · simp [same, found]
      · simp [same]
    | some value =>
      by_cases same : field = written
      · simp [same, found]
      · simp [same]
  constructor
  · simp [identityFields, step]
  · intro field member different
    simp only [identityFields, List.mem_cons, List.not_mem_nil, or_false] at member
    rcases member with rfl | rfl | rfl | rfl | rfl <;> simp [identityFields, step]

end Flair.WriteBack
