import Mathlib.Data.Finmap
import Flair.Foundations.Values

/-! Objects of a dynamically typed language as finite maps from field names to values.
Spreading, assignment and deletion are read field by field, so two objects are equal when
they hold the same fields, whatever order they were written in.
-/

namespace Dynamic

abbrev Record := Finmap (fun _ : String => Value)

namespace Record

/-- `record[field]`; `none` is `undefined`. -/
def get (record : Record) (field : String) : Option Value := record.lookup field

/-- `record[field] = value`. -/
def set (record : Record) (field : String) (value : Value) : Record := record.insert field value

/-- `delete record[field]`. -/
def delete (record : Record) (field : String) : Record := record.erase field

/-- `Object.assign(target, source)`, also `{ ...target, ...source }`. -/
def assign (target source : Record) : Record := source ∪ target

def has (record : Record) (field : String) : Bool := (record.get field).isSome

def filter (record : Record) (keep : String → Value → Bool) : Record where
  entries := record.entries.filter (fun entry => keep entry.1 entry.2)
  nodupKeys := by
    obtain ⟨entries, distinct⟩ := record
    induction entries using Quotient.inductionOn with
    | h entries => exact distinct.sublist List.filter_sublist

/-- The object literal that lists the given fields; a repeated field keeps its last value. -/
def ofFields (fields : List (String × Value)) : Record :=
  fields.foldl (fun record field => record.set field.1 field.2) ∅

theorem ext_get {left right : Record} (h : ∀ field, left.get field = right.get field)
    : left = right :=
  Finmap.ext_lookup h

@[simp] theorem get_empty (field : String) : get ∅ field = none := Finmap.lookup_empty field

@[simp] theorem get_set (record : Record) (written field : String) (value : Value)
    : (record.set written value).get field
      = if field = written then some value else record.get field := by
  by_cases h : field = written
  · subst h
    simp [set, get]
  · simp [h, set, get, Finmap.lookup_insert_of_ne]

@[simp] theorem get_delete (record : Record) (deleted field : String)
    : (record.delete deleted).get field
      = if field = deleted then none else record.get field := by
  by_cases h : field = deleted
  · subst h
    simp [delete, get]
  · simp [h, delete, get, Finmap.lookup_erase_ne]

variable {record : Record} {field : String}

theorem set_eq_self {value : Value} (h : record.get field = some value)
    : record.set field value = record := by
  apply ext_get
  intro other
  by_cases same : other = field
  · simp [same, h]
  · simp [same]

@[simp] theorem get_assign (target source : Record) (field : String)
    : (target.assign source).get field = (source.get field).or (target.get field) := by
  by_cases h : field ∈ source
  · obtain ⟨value, hv⟩ := Finmap.mem_iff.mp h
    simp [assign, get, Finmap.lookup_union_left h, hv]
  · simp [assign, get, Finmap.lookup_union_right h, Finmap.lookup_eq_none.mpr h]

theorem dlookup_filter (entries : List (Sigma fun _ : String => Value))
    (distinct : entries.NodupKeys) (keep : String → Value → Bool) (field : String)
    : List.dlookup field (entries.filter fun entry => decide (keep entry.1 entry.2 = true))
      = (List.dlookup field entries).filter (keep field) := by
  induction entries with
  | nil => rfl
  | cons entry rest ih =>
    obtain ⟨name, value⟩ := entry
    obtain ⟨absent, distinct⟩ := List.nodupKeys_cons.mp distinct
    have ih := ih distinct
    by_cases same : field = name
    · subst same
      have gone : List.dlookup field rest = none := List.dlookup_eq_none.mpr absent
      rw [gone] at ih
      cases kept : keep field value
      · simpa [kept, Option.filter] using ih
      · simp [kept, Option.filter]
    · have skip (tail : List (Sigma fun _ : String => Value))
          : List.dlookup field (⟨name, value⟩ :: tail) = List.dlookup field tail :=
        List.dlookup_cons_ne tail ⟨name, value⟩ same
      cases kept : keep name value
      · simpa [kept, skip] using ih
      · simpa [kept, skip] using ih

@[simp] theorem get_filter (record : Record) (keep : String → Value → Bool) (field : String)
    : (record.filter keep).get field = (record.get field).filter (keep field) := by
  obtain ⟨entries, distinct⟩ := record
  induction entries using Quotient.inductionOn with
  | h entries =>
    exact dlookup_filter entries distinct keep field

theorem has_iff
    : record.has field = true ↔ ∃ value, record.get field = some value := by
  simp [has, Option.isSome_iff_exists]

theorem mem_iff_has
    : field ∈ record ↔ record.has field = true := by
  rw [has_iff, Finmap.mem_iff]
  rfl

def fields (record : Record) : Finset String := record.keys

@[simp] theorem mem_fields
    : field ∈ record.fields ↔ record.has field = true := by
  rw [fields, Finmap.mem_keys, mem_iff_has]

/-- The fields of `next` whose value differs from `base`: what an incremental update of
`base` to `next` writes.
-/
def changes (base next : Record) : Record :=
  next.filter (fun field value => decide (base.get field ≠ some value))

theorem assign_changes {base next : Record}
    (kept : ∀ field, base.has field = true → next.has field = true)
    : base.assign (changes base next) = next := by
  apply ext_get
  intro field
  rw [get_assign, changes, get_filter]
  cases hn : next.get field with
  | none =>
    have absent : base.get field = none := by
      by_contra present
      obtain ⟨value, hv⟩ := Option.ne_none_iff_exists'.mp present
      obtain ⟨other, ho⟩ := has_iff.mp (kept field (has_iff.mpr ⟨value, hv⟩))
      rw [hn] at ho
      cases ho
    simp [absent]
  | some value =>
    by_cases same : base.get field = some value
    · simp [same, Option.filter]
    · simp [same, Option.filter]

end Record

end Dynamic
