import Flair.Foundations.HexText
import Flair.Foundations.InsertionMap
import Flair.Foundations.SortedJson
import Flair.Foundations.Text
import Flair.Migrations.MemoryRows
import Flair.Relay.Seals

/-! The integrity envelope of the stored corpus: the hash of every row's source fields, tagged
with its table and id, and the hash of all of them together. Follows
`resources/migrations/envelope.ts` and `resources/migrations/source-fields.ts`.
-/

namespace Flair.Migrations

open Dynamic JsonText WriteBack

-- Source fields

inductive SourceTable where
  | memory
  | relationship
deriving DecidableEq

def SourceTable.name : SourceTable → String
  | .memory => "Memory"
  | .relationship => "Relationship"

/-- `sourceFieldsFor` -/
def SourceTable.sourceFields : SourceTable → List String
  | .memory =>
    ["content", "agentId", "durability", "visibility", "tags", "createdAt", "supersedes"]
  | .relationship => ["subject", "predicate", "object", "agentId", "validFrom", "validTo"]

/-- The number a key stands for when an object lists it among its array indices. -/
def arrayIndex (key : String) : Option Nat :=
  let amount := Nat.ofDigitChars 10 key.toList 0
  if amount.repr = key ∧ amount < 4294967295 then some amount else none

theorem arrayIndex_eq_some {key : String} {amount : Nat} (h : arrayIndex key = some amount)
    : amount.repr = key := by
  simp only [arrayIndex] at h
  split at h
  · rename_i index
    exact Option.some.inj h ▸ index.1
  · cases h

/-- The order in which an object lists keys that were written in the order of their code units:
array indices come first, by their number.
-/
def propertyOrder : KeyOrder where
  rank key := match arrayIndex key with
    | some amount => [0, amount]
    | none => 1 :: codeUnits key
  injective := by
    intro left right same
    dsimp only at same
    cases leftIndex : arrayIndex left with
    | some amount =>
      cases rightIndex : arrayIndex right with
      | some other =>
        simp only [leftIndex, rightIndex, List.cons.injEq, true_and, and_true] at same
        rw [← arrayIndex_eq_some leftIndex, ← arrayIndex_eq_some rightIndex, same]
      | none => simp [leftIndex, rightIndex] at same
    | none =>
      cases rightIndex : arrayIndex right with
      | some other => simp [leftIndex, rightIndex] at same
      | none =>
        simp only [leftIndex, rightIndex, List.cons.injEq, true_and] at same
        exact codeUnits_injective same

structure Scheme where
  numbers : NumberText
  sha256 : String → List (Fin 256)
  injective : Function.Injective sha256

def Scheme.hex (scheme : Scheme) (text : String) : String :=
  String.ofList (hexChars (scheme.sha256 text))

/-- `row[field] ?? null` -/
def sourceValue (row : Record) (field : String) : Value := (row.get field).getD .null

def picked (row : Record) (fields : List String) : Members :=
  fields.map fun field => (field, sourceValue row field)

def hashSourceFields (scheme : Scheme) (row : Record) (fields : List String) : String :=
  scheme.hex (canonicalText propertyOrder scheme.numbers (.obj (picked row fields)))

-- The envelope

def PlainRow (row : Record) : Prop := ∀ field value, row.get field = some value → value.Plain

structure Corpus where
  table : SourceTable → MemoryTable
  plain : ∀ name, ∀ row ∈ (table name).rows, PlainRow row

def envelopeTables : List SourceTable := [.memory, .relationship]

structure Part where
  table : SourceTable
  id : String
  hash : String
deriving DecidableEq

/-- The key of the row in `perRowHash`. -/
def Part.key (part : Part) : String := part.table.name ++ ":" ++ part.id

def Part.text (part : Part) : String := part.key ++ ":" ++ part.hash

def hashedRows (scheme : Scheme) (corpus : Corpus) : List Part :=
  envelopeTables.flatMap fun table =>
    ((corpus.table table).rows.filter fun row => rowId row ≠ "").map fun row =>
      ⟨table, rowId row, hashSourceFields scheme row table.sourceFields⟩

structure CorpusEnvelope where
  perRowHash : InsertionMap String String
  corpusHash : String
  computedAt : String

def computeCorpusEnvelope (scheme : Scheme) (corpus : Corpus) (now : String) : CorpusEnvelope :=
  let parts := hashedRows scheme corpus
  { perRowHash := parts.foldl (fun hashes part => hashes.set part.key part.hash) []
    corpusHash := scheme.hex ("|".intercalate ((parts.map Part.text).insertionSort textLe))
    computedAt := now }

-- The hash of a row

variable {fields : List String}

theorem lookup_picked (row : Record) {field : String} (listed : field ∈ fields)
    : (picked row fields).lookup field = some (sourceValue row field) := by
  induction fields with
  | nil => cases listed
  | cons first rest ih =>
    rw [picked, List.map_cons, List.lookup_cons]
    by_cases same : field = first
    · simp [same]
    · rw [beq_false_of_ne same]
      exact ih ((List.mem_cons.mp listed).resolve_left same)

variable {row : Record}

theorem PlainRow.sourceValue (plain : PlainRow row) (field : String)
    : (sourceValue row field).Plain := by
  unfold Migrations.sourceValue
  cases held : row.get field with
  | none => trivial
  | some value => exact plain field value held

theorem PlainRow.picked (plain : PlainRow row) (distinct : fields.Nodup)
    : (Value.obj (picked row fields)).Plain := by
  rw [Value.Plain, plainFields_iff, Migrations.picked, List.map_map]
  constructor
  · exact (List.map_id'' (fun _ => rfl) fields).symm ▸ distinct
  · intro member listed
    obtain ⟨field, -, rfl⟩ := List.mem_map.mp listed
    exact plain.sourceValue field

theorem Scheme.hex_inj (scheme : Scheme) {left right : String}
    : scheme.hex left = scheme.hex right ↔ left = right := by
  unfold Scheme.hex
  rw [String.ofList_inj, hexChars_injective.eq_iff, scheme.injective.eq_iff]

theorem hashSourceFields_eq_iff (scheme : Scheme) {left right : Record} (distinct : fields.Nodup)
    (leftPlain : PlainRow left) (rightPlain : PlainRow right)
    : hashSourceFields scheme left fields = hashSourceFields scheme right fields
      ↔ ∀ field ∈ fields, Reorders (sourceValue left field) (sourceValue right field) := by
  have leftPicked := leftPlain.picked distinct
  have rightPicked := rightPlain.picked distinct
  have sorted (field : String)
      : (sourceValue left field).sorted propertyOrder
          = (sourceValue right field).sorted propertyOrder
        ↔ Reorders (sourceValue left field) (sourceValue right field) :=
    sorted_eq_iff (leftPlain.sourceValue field) (rightPlain.sourceValue field)
  unfold hashSourceFields
  rw [scheme.hex_inj, canonicalText_eq_iff scheme.numbers leftPicked rightPicked,
    ← @sorted_eq_iff propertyOrder _ _ leftPicked rightPicked, sorted_obj, sorted_obj,
    Value.obj.injEq]
  constructor
  · intro same field listed
    rw [Value.Plain] at leftPicked rightPicked
    have looked := congrArg (List.lookup field) same
    rw [lookup_sortedMembers leftPicked.1, lookup_sortedMembers rightPicked.1,
      lookup_picked left listed, lookup_picked right listed] at looked
    exact (sorted field).mp (Option.some.inj looked)
  · intro same
    have fieldsEq : sortedFields propertyOrder (picked left fields)
        = sortedFields propertyOrder (picked right fields) := by
      rw [sortedFields_eq, sortedFields_eq, picked, picked, List.map_map, List.map_map]
      exact List.map_congr_left fun field listed =>
        congrArg (Prod.mk field) ((sorted field).mpr (same field listed))
    unfold sortedMembers
    rw [fieldsEq]

-- Corpora that agree

/-- Rows with the same source fields, up to null for absent and the order of keys in them. -/
def SameSource (table : SourceTable) (left right : Record) : Prop :=
  ∀ field ∈ table.sourceFields, Reorders (sourceValue left field) (sourceValue right field)

def AgreeAt (left right : Corpus) (table : SourceTable) (id : String) : Prop :=
  Option.Rel (SameSource table) ((left.table table).get id) ((right.table table).get id)

def SameCorpus (left right : Corpus) : Prop := ∀ table id, AgreeAt left right table id

def SameWithIds (left right : Corpus) : Prop := ∀ table id, id ≠ "" → AgreeAt left right table id

def SameWithoutIds (left right : Corpus) : Prop := ∀ table, AgreeAt left right table ""

def partLe (left right : Part) : Prop := textLe left.text right.text

instance : DecidableRel partLe := fun left right =>
  inferInstanceAs (Decidable (textLe left.text right.text))

instance : IsTrans Part partLe := ⟨fun _ _ _ => le_trans⟩

instance : Std.Total partLe := ⟨fun left right => total_of textLe left.text right.text⟩

def listing (scheme : Scheme) (corpus : Corpus) : List Part :=
  (hashedRows scheme corpus).insertionSort partLe

/-- The parts agree up to a row, and there the second's id spells out the first's row and what
follows it.
-/
def Spells (left right : List Part) : Prop :=
  ∃ same part before other after rest,
    left = same ++ part :: before ∧ right = same ++ other :: after
      ∧ other.table = part.table ∧ other.id = part.id ++ ":" ++ part.hash ++ "|" ++ rest
      ∧ "|".intercalate (before.map Part.text)
        = "|".intercalate ((rest ++ ":" ++ other.hash) :: after.map Part.text)

-- Texts of parts

def Part.chars (part : Part) : List Char :=
  (part.table.name.toList ++ ':' :: part.id.toList) ++ ':' :: part.hash.toList

theorem Part.toList_text (part : Part) : part.text.toList = part.chars := by
  simp [Part.text, Part.key, Part.chars]

def Part.Hashed (part : Part) : Prop := ':' ∉ part.hash.toList ∧ '|' ∉ part.hash.toList

theorem hexDigit_plain : ∀ digit < 16, ':' ≠ hexDigit digit ∧ '|' ≠ hexDigit digit := by decide

theorem hex_plain (scheme : Scheme) (text : String)
    : ':' ∉ (scheme.hex text).toList ∧ '|' ∉ (scheme.hex text).toList := by
  have digits : ∀ c ∈ hexChars (scheme.sha256 text), ':' ≠ c ∧ '|' ≠ c := by
    intro c listed
    obtain ⟨byte, -, written⟩ := List.mem_flatMap.mp listed
    rcases List.mem_pair.mp written with rfl | rfl
    · exact hexDigit_plain _ (by omega)
    · exact hexDigit_plain _ (by omega)
  rw [Scheme.hex, String.toList_ofList]
  exact ⟨fun listed => (digits _ listed).1 rfl, fun listed => (digits _ listed).2 rfl⟩

variable {more : List Char}

theorem name_prefix {left right : SourceTable} {rest : List Char}
    (h : left.name.toList ++ rest = right.name.toList ++ more)
    : left = right ∧ rest = more := by
  cases left <;> cases right
  · exact ⟨rfl, List.append_cancel_left h⟩
  · cases (List.cons.inj h).1
  · cases (List.cons.inj h).1
  · exact ⟨rfl, List.append_cancel_left h⟩

theorem Part.chars_inj {left right : Part} (leftHashed : left.Hashed) (rightHashed : right.Hashed)
    (h : left.chars = right.chars)
    : left = right := by
  obtain ⟨heads, hashes⟩ := split_last h leftHashed.1 rightHashed.1
  obtain ⟨tables, ids⟩ := name_prefix heads
  obtain ⟨table, id, hash⟩ := left
  cases tables
  cases String.toList_inj.mp (List.cons.inj ids).2
  cases String.toList_inj.mp hashes
  rfl

theorem Part.spelled {part other : Part} (hashed : other.Hashed)
    (h : other.chars = part.chars ++ '|' :: more)
    : other.table = part.table ∧ ∃ rest,
      other.id.toList = part.id.toList ++ ':' :: part.hash.toList ++ '|' :: rest
      ∧ more = rest ++ ':' :: other.hash.toList := by
  unfold Part.chars at h
  rw [List.append_assoc, List.append_assoc, List.append_assoc] at h
  obtain ⟨tables, tails⟩ := name_prefix h
  refine ⟨tables, ?_⟩
  have rests : other.id.toList ++ ':' :: other.hash.toList
      = (part.id.toList ++ ':' :: part.hash.toList) ++ '|' :: more := by
    simpa using tails
  have last : '|' ∉ ':' :: other.hash.toList := by
    simpa using hashed.2
  rcases List.append_eq_append_iff.mp rests with ⟨excess, -, overrun⟩ | ⟨excess, ids, inside⟩
  · exact absurd (overrun ▸ List.mem_append_right excess List.mem_cons_self) last
  cases excess with
  | nil => cases (List.cons.inj inside).1
  | cons c rest =>
    obtain ⟨rfl, moreEq⟩ := List.cons.inj inside
    exact ⟨rest, ids, moreEq⟩

-- Listings

def barred (parts : List Part) : List Char := parts.flatMap fun part => '|' :: part.chars

theorem intercalate_chars (first : List Char) (parts : List Part)
    : ['|'].intercalate (first :: parts.map Part.chars) = first ++ barred parts := by
  induction parts generalizing first with
  | nil => simp [barred, List.intercalate]
  | cons part rest ih =>
    rw [List.map_cons, List.intercalate_cons_cons, ih]
    simp [barred]

theorem toList_joined (first : String) (parts : List Part)
    : ("|".intercalate (first :: parts.map Part.text)).toList = first.toList ++ barred parts := by
  rw [String.toList_intercalate, List.map_cons, List.map_map, ← intercalate_chars]
  refine congrArg (fun texts => ['|'].intercalate (first.toList :: texts)) ?_
  exact List.map_congr_left fun part _ => part.toList_text

theorem joined_ne_nil (first : String) (parts : List Part) (more : List Part)
    (nonempty : first ≠ "") (h : "|".intercalate (more.map Part.text)
      = "|".intercalate (first :: parts.map Part.text))
    : ∃ next others, more = next :: others := by
  cases more with
  | nil =>
    have chars := congrArg String.toList h
    rw [toList_joined] at chars
    have empty : first.toList = [] := (List.append_eq_nil_iff.mp chars.symm).1
    exact absurd (String.toList_inj.mp empty) nonempty
  | cons next others => exact ⟨next, others, rfl⟩

theorem chars_ne_nil (part : Part) : part.chars ≠ [] := by simp [Part.chars]

variable {left right : List Part}

theorem Spells.cons (h : Spells left right) (part : Part)
    : Spells (part :: left) (part :: right) := by
  obtain ⟨same, first, before, other, after, rest, rfl, rfl, spelled⟩ := h
  exact ⟨part :: same, first, before, other, after, rest, rfl, rfl, spelled⟩

/-- Where the longer of two parts starts like the shorter, its id spells out the shorter and the
parts after it.
-/
theorem spells_of_longer {part other : Part} {before after : List Part} (hashed : other.Hashed)
    (longer : other.chars = part.chars ++ more) (nonempty : more ≠ [])
    (tails : barred before = more ++ barred after)
    : Spells (part :: before) (other :: after) := by
  cases before with
  | nil => exact absurd (List.append_eq_nil_iff.mp tails.symm).1 nonempty
  | cons next others =>
    obtain ⟨c, rest, rfl⟩ := List.exists_cons_of_ne_nil nonempty
    rw [barred, List.flatMap_cons, ← barred, List.cons_append, List.cons_append] at tails
    obtain ⟨rfl, joined⟩ := List.cons.inj tails
    obtain ⟨tables, spare, ids, moreEq⟩ := Part.spelled hashed longer
    refine ⟨[], part, _, other, after, String.ofList spare, rfl, rfl, tables, ?_, ?_⟩
    · refine String.toList_inj.mp ?_
      simp [ids]
    · refine String.toList_inj.mp ?_
      rw [List.map_cons, toList_joined, toList_joined, next.toList_text, joined, moreEq]
      simp

theorem joined_of_barred (h : barred left = barred right)
    : "|".intercalate (left.map Part.text) = "|".intercalate (right.map Part.text) := by
  cases left with
  | nil =>
    cases right with
    | nil => rfl
    | cons => cases h
  | cons part before =>
    cases right with
    | nil => cases h
    | cons other after =>
      refine String.toList_inj.mp ?_
      rw [List.map_cons, List.map_cons, toList_joined, toList_joined, part.toList_text,
        other.toList_text]
      exact (List.cons.inj h).2

/-- Listings with one joined text agree, or one spells out the other. By induction on the first;
the longer of two first parts is the one whose id spells.
-/
theorem eq_or_spells (leftHashed : ∀ part ∈ left, part.Hashed)
    (rightHashed : ∀ part ∈ right, part.Hashed)
    (h : "|".intercalate (left.map Part.text) = "|".intercalate (right.map Part.text))
    : left = right ∨ Spells left right ∨ Spells right left := by
  have filled (part : Part) : part.text ≠ "" := by
    intro empty
    exact chars_ne_nil part (part.toList_text ▸ congrArg String.toList empty)
  induction left generalizing right with
  | nil =>
    cases right with
    | nil => exact Or.inl rfl
    | cons other after =>
      obtain ⟨_, _, impossible⟩ := joined_ne_nil _ after [] (filled other) h
      cases impossible
  | cons part before ih =>
    cases right with
    | nil =>
      obtain ⟨_, _, impossible⟩ := joined_ne_nil _ before [] (filled part) h.symm
      cases impossible
    | cons other after =>
      obtain ⟨partHashed, beforeHashed⟩ := List.forall_mem_cons.mp leftHashed
      obtain ⟨otherHashed, afterHashed⟩ := List.forall_mem_cons.mp rightHashed
      have chars := congrArg String.toList h
      rw [List.map_cons, List.map_cons, toList_joined, toList_joined, part.toList_text,
        other.toList_text] at chars
      by_cases same : part = other
      · subst same
        have tails := joined_of_barred (List.append_cancel_left chars)
        rcases ih beforeHashed afterHashed tails with equal | spells | spells
        · exact Or.inl (congrArg (part :: ·) equal)
        · exact Or.inr (Or.inl (spells.cons part))
        · exact Or.inr (Or.inr (spells.cons part))
      · have apart {more : List Char} (h : more = []) : ∀ {first second : Part}, first.Hashed
            → second.Hashed → second.chars = first.chars ++ more → first = second := by
          intro first second firstHashed secondHashed longer
          rw [h, List.append_nil] at longer
          exact (Part.chars_inj secondHashed firstHashed longer).symm
        rcases List.append_eq_append_iff.mp chars with
          ⟨more, longer, tails⟩ | ⟨more, longer, tails⟩
        · have nonempty : more ≠ [] := fun empty =>
            same (apart empty partHashed otherHashed longer)
          exact Or.inr (Or.inl (spells_of_longer otherHashed longer nonempty tails))
        · have nonempty : more ≠ [] := fun empty =>
            same (apart empty otherHashed partHashed longer).symm
          exact Or.inr (Or.inr (spells_of_longer partHashed longer nonempty tails))

theorem joined_append (same : List Part) {left right : Part} {before after : List Part}
    (h : left.chars ++ barred before = right.chars ++ barred after)
    : "|".intercalate ((same ++ left :: before).map Part.text)
      = "|".intercalate ((same ++ right :: after).map Part.text) := by
  refine String.toList_inj.mp ?_
  cases same with
  | nil =>
    rw [List.nil_append, List.nil_append, List.map_cons, List.map_cons, toList_joined,
      toList_joined, left.toList_text, right.toList_text, h]
  | cons first rest =>
    rw [List.cons_append, List.cons_append, List.map_cons, List.map_cons, toList_joined,
      toList_joined]
    simpa [barred] using h

theorem Spells.joined_eq (h : Spells left right)
    : "|".intercalate (left.map Part.text) = "|".intercalate (right.map Part.text) := by
  obtain ⟨same, part, before, other, after, rest, rfl, rfl, tables, ids, tails⟩ := h
  obtain ⟨next, others, rfl⟩ := joined_ne_nil _ after before (by simp) tails
  refine joined_append same ?_
  have chars := congrArg String.toList tails
  rw [List.map_cons, toList_joined, toList_joined, next.toList_text] at chars
  rw [barred, List.flatMap_cons, List.cons_append, ← barred, chars, Part.chars, Part.chars,
    tables, ids]
  simp

theorem not_spells_self (parts : List Part) : ¬ Spells parts parts := by
  rintro ⟨same, part, before, other, after, rest, split, again, -, ids, -⟩
  have here : part = other := (List.cons.inj (List.append_cancel_left (split.symm.trans again))).1
  have lengths := congrArg String.length ids
  rw [here, String.length_append, String.length_append, String.length_append,
    String.length_append] at lengths
  have colon : ":".length = 1 := rfl
  omega

-- Corpora

theorem MemoryTable.get_eq_some {table : MemoryTable} {id : String}
    : table.get id = some row ↔ row ∈ table.rows ∧ rowId row = id := by
  have named {stored : Record} (found : table.get id = some stored) : rowId stored = id :=
    of_decide_eq_true (@List.find?_some _ (fun row => decide (rowId row = id)) _ _ found)
  constructor
  · intro found
    exact ⟨List.mem_of_find?_eq_some found, named found⟩
  rintro ⟨stored, here⟩
  cases found : table.get id with
  | none => exact absurd (decide_eq_true here) (List.find?_eq_none.mp found row stored)
  | some other =>
    have held := List.mem_of_find?_eq_some found
    rw [List.inj_on_of_nodup_map table.distinct held stored ((named found).trans here.symm)]

section

variable (scheme : Scheme) {left right corpus : Corpus} {part : Part}

theorem mem_hashedRows
    : part ∈ hashedRows scheme corpus
      ↔ part.id ≠ "" ∧ ∃ row, (corpus.table part.table).get part.id = some row
        ∧ hashSourceFields scheme row part.table.sourceFields = part.hash := by
  obtain ⟨table, id, hash⟩ := part
  have listed : table ∈ envelopeTables := by cases table <;> decide
  simp only [hashedRows, List.mem_flatMap, List.mem_map, List.mem_filter, decide_eq_true_eq,
    MemoryTable.get_eq_some]
  constructor
  · rintro ⟨_, -, row, ⟨stored, filled⟩, kept⟩
    cases kept
    exact ⟨filled, row, ⟨stored, rfl⟩, rfl⟩
  · rintro ⟨filled, row, ⟨stored, rfl⟩, rfl⟩
    exact ⟨table, listed, row, ⟨stored, filled⟩, rfl⟩

theorem nodup_hashedRows (corpus : Corpus) : (hashedRows scheme corpus).Nodup := by
  have each (table : SourceTable)
      : (((corpus.table table).rows.filter fun row => rowId row ≠ "").map fun row =>
          Part.mk table (rowId row) (hashSourceFields scheme row table.sourceFields)).Nodup := by
    refine List.Nodup.of_map Part.id ?_
    rw [List.map_map]
    exact (corpus.table table).distinct.sublist (List.filter_sublist.map _)
  unfold hashedRows envelopeTables
  rw [List.flatMap_cons, List.flatMap_cons, List.flatMap_nil, List.append_nil, List.nodup_append]
  refine ⟨each .memory, each .relationship, fun first inMemory second inRelationship same => ?_⟩
  obtain ⟨_, -, rfl⟩ := List.mem_map.mp inMemory
  obtain ⟨_, -, rfl⟩ := List.mem_map.mp inRelationship
  cases same

theorem hashed_of_mem (h : part ∈ hashedRows scheme corpus) : part.Hashed := by
  obtain ⟨-, row, -, hash⟩ := (mem_hashedRows scheme).mp h
  unfold Part.Hashed
  rw [← hash]
  exact hex_plain scheme _

theorem mem_listing : part ∈ listing scheme corpus ↔ part ∈ hashedRows scheme corpus :=
  List.mem_insertionSort _

theorem nodup_sourceFields (table : SourceTable) : table.sourceFields.Nodup := by
  cases table <;> decide

theorem rowHash_eq_iff {table : SourceTable} {id : String} {row other : Record}
    (leftRow : (left.table table).get id = some row)
    (rightRow : (right.table table).get id = some other)
    : hashSourceFields scheme row table.sourceFields
        = hashSourceFields scheme other table.sourceFields
      ↔ SameSource table row other :=
  hashSourceFields_eq_iff scheme (nodup_sourceFields table)
    (left.plain table row (MemoryTable.get_eq_some.mp leftRow).1)
    (right.plain table other (MemoryTable.get_eq_some.mp rightRow).1)

theorem agreeAt_iff {table : SourceTable} {id : String}
    : AgreeAt left right table id
      ↔ ∀ hash, (∃ row, (left.table table).get id = some row
            ∧ hashSourceFields scheme row table.sourceFields = hash)
          ↔ ∃ row, (right.table table).get id = some row
            ∧ hashSourceFields scheme row table.sourceFields = hash := by
  unfold AgreeAt
  cases leftRow : (left.table table).get id with
  | none =>
    cases rightRow : (right.table table).get id with
    | none => simp
    | some other => simp
  | some row =>
    cases rightRow : (right.table table).get id with
    | none => simp
    | some other =>
      rw [Option.rel_some_some, ← rowHash_eq_iff scheme leftRow rightRow]
      simp only [Option.some.injEq, exists_eq_left']
      exact ⟨fun same _ => by rw [same], fun same => ((same _).mpr rfl)⟩

theorem sameWithIds_iff
    : SameWithIds left right
      ↔ ∀ part, part ∈ hashedRows scheme left ↔ part ∈ hashedRows scheme right := by
  simp only [SameWithIds, agreeAt_iff scheme, mem_hashedRows]
  constructor
  · intro same part
    exact and_congr_right fun filled => same part.table part.id filled part.hash
  · intro same table id filled hash
    simpa [filled] using same ⟨table, id, hash⟩

theorem listing_eq_iff : listing scheme left = listing scheme right ↔ SameWithIds left right := by
  rw [sameWithIds_iff scheme]
  constructor
  · intro same part
    rw [← mem_listing, ← mem_listing, same]
  intro same
  have perm : (hashedRows scheme left).Perm (hashedRows scheme right) :=
    (List.perm_ext_iff_of_nodup (nodup_hashedRows scheme left)
      (nodup_hashedRows scheme right)).mpr same
  refine List.Perm.eq_of_pairwise ?_ (List.pairwise_insertionSort partLe _)
    (List.pairwise_insertionSort partLe _)
    ((List.perm_insertionSort partLe _).trans
      (perm.trans (List.perm_insertionSort partLe _).symm))
  intro first second inLeft inRight below above
  have texts : first.text = second.text := antisymm_of textLe below above
  refine Part.chars_inj (hashed_of_mem scheme ((mem_listing scheme).mp inLeft))
    (hashed_of_mem scheme ((mem_listing scheme).mp inRight)) ?_
  rw [← Part.toList_text, ← Part.toList_text, texts]

theorem corpusHash_eq_iff (now later : String)
    : (computeCorpusEnvelope scheme left now).corpusHash
        = (computeCorpusEnvelope scheme right later).corpusHash
      ↔ SameWithIds left right ∨ Spells (listing scheme left) (listing scheme right)
        ∨ Spells (listing scheme right) (listing scheme left) := by
  have texts (corpus : Corpus)
      : ((hashedRows scheme corpus).map Part.text).insertionSort textLe
        = (listing scheme corpus).map Part.text :=
    (List.map_insertionSort partLe textLe _ _ fun _ _ _ _ => Iff.rfl).symm
  simp only [computeCorpusEnvelope, scheme.hex_inj, texts]
  rw [← listing_eq_iff scheme]
  constructor
  · exact eq_or_spells (fun _ listed => hashed_of_mem scheme ((mem_listing scheme).mp listed))
      (fun _ listed => hashed_of_mem scheme ((mem_listing scheme).mp listed))
  rintro (same | spells | spells)
  · rw [same]
  · exact spells.joined_eq
  · exact spells.joined_eq.symm

theorem not_same_of_spells (h : Spells (listing scheme left) (listing scheme right))
    : ¬ SameWithIds left right := by
  intro same
  rw [(listing_eq_iff scheme).mpr same] at h
  exact not_spells_self _ h

theorem sameCorpus_iff
    : SameCorpus left right ↔ SameWithIds left right ∧ SameWithoutIds left right := by
  constructor
  · exact fun same => ⟨fun table id _ => same table id, fun table => same table ""⟩
  rintro ⟨withIds, withoutIds⟩ table id
  by_cases filled : id = ""
  · exact filled ▸ withoutIds table
  · exact withIds table id filled

/-- The hashes of two corpora tell whether they agree exactly when neither listing spells out the
other and no row without an id stands alone between them.
-/
theorem corpus_hash_exact (scheme : Scheme) (left right : Corpus) (now later : String)
    : (((computeCorpusEnvelope scheme left now).corpusHash
          = (computeCorpusEnvelope scheme right later).corpusHash
        ↔ SameCorpus left right)
      ↔ ¬ Spells (listing scheme left) (listing scheme right)
        ∧ ¬ Spells (listing scheme right) (listing scheme left)
        ∧ (SameWithIds left right → SameWithoutIds left right)) := by
  have symmetric : SameWithIds left right → SameWithIds right left := by
    rw [sameWithIds_iff scheme, sameWithIds_iff scheme]
    exact fun same part => (same part).symm
  have forward := @not_same_of_spells scheme left right
  have backward := @not_same_of_spells scheme right left
  rw [corpusHash_eq_iff, sameCorpus_iff]
  tauto

end

-- An id that spells out a row

variable {scheme : Scheme}

def unaryScheme : Scheme where
  numbers := Relay.codedNumbers
  sha256 := unaryBytes
  injective := unaryBytes_injective

def noteFields : Record := Record.ofFields [("content", .str "Deploys need a second review."),
  ("agentId", .str "scout"), ("durability", .str "standard"),
  ("createdAt", .str "2026-07-11T00:00:00.000Z")]

def storedNote (id : String) : Record := noteFields.set "id" (.str id)

theorem rowId_storedNote (id : String) : rowId (storedNote id) = id := by
  simp [rowId, storedNote, isNullish, idText]

theorem plain_storedNote (id : String) : PlainRow (storedNote id) := by
  intro field value held
  simp only [storedNote, noteFields, Record.ofFields, List.foldl, Record.get_set,
    Record.get_empty] at held
  split_ifs at held <;> cases held <;> trivial

def noteHash : String := hashSourceFields unaryScheme noteFields SourceTable.memory.sourceFields

theorem hash_storedNote (id : String)
    : hashSourceFields unaryScheme (storedNote id) SourceTable.memory.sourceFields = noteHash := by
  have same : picked (storedNote id) SourceTable.memory.sourceFields
      = picked noteFields SourceTable.memory.sourceFields := by
    refine List.map_congr_left fun field listed => ?_
    have other : field ≠ "id" := fun named => absurd (named ▸ listed) (by decide)
    simp [sourceValue, storedNote, other]
  rw [noteHash, hashSourceFields, hashSourceFields, same]

def notes (ids : List String) (distinct : ids.Nodup) : Corpus where
  table
    | .memory => ⟨ids.map storedNote, by
        rw [List.map_map]
        exact (List.map_id'' rowId_storedNote ids).symm ▸ distinct⟩
    | .relationship => ⟨[], List.nodup_nil⟩
  plain := by
    intro name row stored
    cases name with
    | memory =>
      obtain ⟨id, -, rfl⟩ := List.mem_map.mp stored
      exact plain_storedNote id
    | relationship => cases stored

theorem hashedRows_notes {ids : List String} (distinct : ids.Nodup) (filled : ∀ id ∈ ids, id ≠ "")
    : hashedRows unaryScheme (notes ids distinct) = ids.map fun id => ⟨.memory, id, noteHash⟩ := by
  have kept : (ids.map storedNote).filter (fun row => rowId row ≠ "") = ids.map storedNote := by
    rw [List.filter_eq_self]
    intro row stored
    obtain ⟨id, listed, rfl⟩ := List.mem_map.mp stored
    simpa [rowId_storedNote] using filled id listed
  simp only [hashedRows, envelopeTables, List.flatMap_cons, List.flatMap_nil, List.append_nil,
    notes, List.filter_nil, List.map_nil, kept, List.map_map]
  exact List.map_congr_left fun id _ => by
    simp only [Function.comp_apply, rowId_storedNote, hash_storedNote]

theorem spelled_ne (hash : String)
    : "a:" ++ hash ++ "|Memory:b" ≠ "a" ∧ "a:" ++ hash ++ "|Memory:b" ≠ "" := by
  constructor
  · intro short
    have chars := congrArg String.toList short
    simp at chars
  · intro empty
    have chars := congrArg String.toList empty
    simp at chars

theorem below_of_ids (hash : String) : partLe ⟨.memory, "a", hash⟩ ⟨.memory, "b", hash⟩ := by
  have ids : codeUnitRank 'a' < codeUnitRank 'b' := by decide
  refine le_of_lt ?_
  simp [codeUnits, Part.text, Part.key, SourceTable.name, List.cons_lt_cons_iff, ids]

theorem collides_of_spelled {left right : Corpus} {hash : String}
    (pair : hashedRows scheme left = [⟨.memory, "a", hash⟩, ⟨.memory, "b", hash⟩])
    (single : hashedRows scheme right = [⟨.memory, "a:" ++ hash ++ "|Memory:b", hash⟩])
    (now : String)
    : (computeCorpusEnvelope scheme left now).corpusHash
          = (computeCorpusEnvelope scheme right now).corpusHash
        ∧ ¬ SameCorpus left right := by
  constructor
  · rw [corpusHash_eq_iff, listing, listing, pair, single, List.insertionSort_cons,
      List.insertionSort_cons, List.insertionSort_nil, List.orderedInsert_nil,
      List.orderedInsert_cons, if_pos (below_of_ids hash)]
    refine Or.inr (Or.inl ⟨[], _, _, _, [], "Memory:b", rfl, rfl, rfl, ?_, ?_⟩)
    · refine String.toList_inj.mp ?_
      simp
    · simp [Part.text, Part.key, SourceTable.name]
  · intro same
    have parts := (sameWithIds_iff scheme).mp fun table id _ => same table id
    have listed := (parts ⟨.memory, "a", hash⟩).mp (by simp [pair])
    rw [single, List.mem_singleton, Part.mk.injEq] at listed
    exact (spelled_ne hash).1 listed.2.1.symm

/-- A note whose id spells out one note's row hashes like two notes. -/
theorem spelled_id_collides
    : ¬ ∀ (scheme : Scheme) (left right : Corpus) (now : String),
      (computeCorpusEnvelope scheme left now).corpusHash
          = (computeCorpusEnvelope scheme right now).corpusHash
        ↔ SameCorpus left right := by
  intro all
  have distinct : ["a", "b"].Nodup := by decide
  have pair := hashedRows_notes distinct (by decide)
  have single := hashedRows_notes (List.nodup_singleton ("a:" ++ noteHash ++ "|Memory:b"))
    (List.forall_mem_singleton.mpr (spelled_ne noteHash).2)
  obtain ⟨hashes, apart⟩ := collides_of_spelled pair single ""
  exact apart ((all unaryScheme _ _ "").mp hashes)

end Flair.Migrations
