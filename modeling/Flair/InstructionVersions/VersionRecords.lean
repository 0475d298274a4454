import Flair.Foundations.JsonText
import Flair.Foundations.LinkedChain
import Flair.Foundations.Text
import Mathlib.Data.String.Basic

/-! The rows of InstructionVersion: their ids, subjects and digests, the table's writes and the
head a subject's history is read at. Follows `resources/instruction-version-record.ts`.
-/

namespace Flair.InstructionVersions

open LinkedChain

-- Subjects

inductive SubjectType where
  | soul
  | skill
deriving DecidableEq

def SubjectType.text : SubjectType → String
  | .soul => "soul"
  | .skill => "skill"

/-- What a version chain is about: a Soul pair or a skill's logical id. -/
structure Subject where
  subjectType : SubjectType
  subjectId : String
deriving DecidableEq

def soulSubjectId (agentId key : String) : String :=
  if ':' ∈ agentId.toList ∨ ':' ∈ key.toList then
    ":" ++ JsonText.array [JsonText.quote agentId, JsonText.quote key]
  else agentId ++ ":" ++ key

/-- The subject id Soul rows had before pairs with a colon were encoded. -/
def legacySoulSubjectId (agentId key : String) : String := agentId ++ ":" ++ key

def versionId (subjectType : SubjectType) (subjectId : String) (sequence : Nat) : String :=
  subjectType.text ++ ":" ++ subjectId ++ ":" ++ sequence.repr

theorem colon_mem_quote {text : String} (h : ':' ∈ text.toList)
    : ':' ∈ (JsonText.quote text).toList := by
  simp only [JsonText.quote, JsonText.quoteChars, String.toList_ofList, List.mem_append,
    List.mem_cons, List.mem_flatMap]
  exact Or.inl (Or.inr ⟨':', h, by decide⟩)

variable {agentId key : String}

theorem encoded_ne_plain {plainAgent plainKey : String}
    (colon : ':' ∈ agentId.toList ∨ ':' ∈ key.toList)
    (plain : ¬ (':' ∈ plainAgent.toList ∨ ':' ∈ plainKey.toList))
    : ":" ++ JsonText.array [JsonText.quote agentId, JsonText.quote key]
        ≠ plainAgent ++ ":" ++ plainKey := by
  intro h
  have chars := congrArg String.toList h
  simp only [String.toList_append, List.append_assoc] at chars
  have split : ([] : List Char) ++ ':' :: (JsonText.array
        [JsonText.quote agentId, JsonText.quote key]).toList
      = plainAgent.toList ++ ':' :: plainKey.toList := by
    simpa using chars
  have tails : (JsonText.array [JsonText.quote agentId, JsonText.quote key]).toList
      = plainKey.toList := by
    cases agent : plainAgent.toList with
    | nil =>
      rw [agent] at split
      exact (List.cons.inj split).2
    | cons c rest =>
      rw [agent] at split
      have first : ':' = c := (List.cons.inj split).1
      exact absurd (Or.inl (by rw [agent, ← first]; exact List.mem_cons_self)) plain
  apply plain
  right
  rw [← tails]
  simp only [JsonText.array, List.map_cons, List.map_nil, List.intercalate_cons_cons,
    List.intercalate_singleton, String.toList_ofList, List.mem_append, List.mem_cons]
  rcases colon with inAgent | inKey
  · exact Or.inl (Or.inr (Or.inl (Or.inl (colon_mem_quote inAgent))))
  · exact Or.inl (Or.inr (Or.inr (colon_mem_quote inKey)))

theorem soulSubjectId_inj {agentId' key' : String}
    (h : soulSubjectId agentId key = soulSubjectId agentId' key')
    : agentId = agentId' ∧ key = key' := by
  unfold soulSubjectId at h
  split at h
  · rename_i colon
    split at h
    · have chars := congrArg String.toList h
      simp only [String.toList_append] at chars
      have arrays := String.toList_inj.mp (List.append_cancel_left chars)
      exact JsonText.array_pair_inj arrays
    · rename_i plain
      exact absurd h (encoded_ne_plain colon plain)
  · rename_i plain
    split at h
    · rename_i colon
      exact absurd h.symm (encoded_ne_plain colon plain)
    rename_i plain'
    have chars := congrArg String.toList h
    simp only [String.toList_append, List.append_assoc] at chars
    have noColon : ':' ∉ agentId.toList := fun member => plain (Or.inl member)
    have noColonKey : ':' ∉ key.toList := fun member => plain (Or.inr member)
    obtain ⟨agents, -, keys⟩ := (List.append_cons_inj_of_notMem noColon noColonKey).mp chars
    exact ⟨String.toList_inj.mp agents, String.toList_inj.mp keys⟩

theorem colon_not_mem_repr (sequence : Nat) : ':' ∉ sequence.repr.toList := by
  intro member
  rw [Nat.repr_eq_ofList_toDigits, String.toList_ofList] at member
  have digit := Nat.isDigit_of_mem_toDigits (by decide) (by decide) member
  exact absurd digit (by decide)

theorem repr_inj {left right : Nat} (h : left.repr = right.repr) : left = right := by
  rw [Nat.repr_eq_ofList_toDigits, Nat.repr_eq_ofList_toDigits] at h
  have digits : Nat.toDigits 10 left = Nat.toDigits 10 right := by
    simpa using congrArg String.toList h
  have values := congrArg (fun chars => Nat.ofDigitChars 10 chars 0) digits
  simpa using values

theorem versionId_inj {subjectType subjectType' : SubjectType} {subjectId subjectId' : String}
    {sequence sequence' : Nat}
    (h : versionId subjectType subjectId sequence = versionId subjectType' subjectId' sequence')
    : subjectType = subjectType' ∧ subjectId = subjectId' ∧ sequence = sequence' := by
  have chars := congrArg String.toList h
  simp only [versionId, String.toList_append] at chars
  rw [List.append_assoc _ ":".toList, List.append_assoc _ ":".toList sequence'.repr.toList]
    at chars
  obtain ⟨subjects, sequences⟩ :=
    Dynamic.split_last chars (colon_not_mem_repr sequence) (colon_not_mem_repr sequence')
  have sameSequence : sequence = sequence' := repr_inj (String.toList_inj.mp sequences)
  cases subjectType <;> cases subjectType'
  · have ids := List.append_cancel_left subjects
    exact ⟨rfl, String.toList_inj.mp ids, sameSequence⟩
  · cases (List.cons.inj (List.cons.inj subjects).2).1
  · cases (List.cons.inj (List.cons.inj subjects).2).1
  · have ids := List.append_cancel_left subjects
    exact ⟨rfl, String.toList_inj.mp ids, sameSequence⟩

-- Records

inductive VersionKind where
  | create
  | update
  | delete
deriving DecidableEq

def VersionKind.text : VersionKind → String
  | .create => "create"
  | .update => "update"
  | .delete => "delete"

/-- Server-derived attribution: `actorKind` and `sourceClass` by their texts. -/
structure VersionAttribution where
  actorKind : String
  actorId : Option String
  sourceClass : String
deriving DecidableEq

structure VersionRecord where
  id : String
  subjectType : SubjectType
  subjectId : String
  agentId : String
  key : Option String
  version : Nat
  kind : VersionKind
  rowId : String
  valueHash : Option String
  previousVersionHash : Option String
  soulSnapshot : Option String
  memoryId : Option String
  visibility : Option String
  attribution : VersionAttribution
  createdAt : String
  guarded : Bool
  expectedVersion : Option String
  recordHash : String
deriving DecidableEq

def VersionRecord.subject (record : VersionRecord) : Subject where
  subjectType := record.subjectType
  subjectId := record.subjectId

def digestField (name : String) (value : Option String) : String :=
  JsonText.array [JsonText.quote name, (value.map JsonText.quote).getD "null"]

/-- The fields of `RECORD_HASH_FIELDS`, in that order. -/
def recordHashFields (record : VersionRecord) : List String :=
  [digestField "id" record.id,
    digestField "subjectType" record.subjectType.text,
    digestField "subjectId" record.subjectId,
    digestField "agentId" record.agentId,
    digestField "key" record.key,
    digestField "version" record.version.repr,
    digestField "kind" record.kind.text,
    digestField "rowId" record.rowId,
    digestField "valueHash" record.valueHash,
    digestField "previousVersionHash" record.previousVersionHash,
    digestField "soulSnapshot" record.soulSnapshot,
    digestField "memoryId" record.memoryId,
    digestField "visibility" record.visibility,
    digestField "actorKind" record.attribution.actorKind,
    digestField "actorId" record.attribution.actorId,
    digestField "sourceClass" record.attribution.sourceClass,
    digestField "createdAt" record.createdAt,
    JsonText.array [JsonText.quote "guarded", if record.guarded then "true" else "false"],
    digestField "expectedVersion" record.expectedVersion]

/-- sha256 of the canonical serialization, which leaves `recordHash` out. -/
def recordDigest (sha256 : String → String) (record : VersionRecord) : String :=
  sha256 (JsonText.array (recordHashFields record))

def VersionRecord.stamp (sha256 : String → String) (record : VersionRecord) : VersionRecord :=
  { record with recordHash := recordDigest sha256 record }

def valueDigest (sha256 : String → String) (value : Option String) : Option String :=
  value.map sha256

-- The table

/-- The write of `create`: the row takes the place of the one under its id. -/
def putRecord (records : List VersionRecord) (record : VersionRecord) : List VersionRecord :=
  record :: records.filter (fun other => other.id ≠ record.id)

def deleteRecord (records : List VersionRecord) (id : String) : List VersionRecord :=
  records.filter (fun record => record.id ≠ id)

def ofSubject (records : List VersionRecord) (subject : Subject) : List VersionRecord :=
  records.filter (fun record => record.subject = subject)

def versionLinks : Links VersionRecord String where
  seq := VersionRecord.version
  hash := VersionRecord.recordHash
  previous := VersionRecord.previousVersionHash

/-- `readHead`: the subject's record with the greatest version. -/
def readHead (records : List VersionRecord) (subject : Subject) : Option VersionRecord :=
  newest versionLinks (ofSubject records subject)

/-- `readHead` with a Soul identity. -/
def readIdentityHead (records : List VersionRecord) (subjectId agentId key : String)
    : Option VersionRecord :=
  newest versionLinks ((ofSubject records { subjectType := .soul, subjectId }).filter
    fun record => record.agentId = agentId ∧ record.key = some key)

/-- `readSoulHead`: the encoded subject's head, else the legacy subject's. -/
def readSoulHead (records : List VersionRecord) (agentId key : String)
    : Option VersionRecord :=
  match readIdentityHead records (soulSubjectId agentId key) agentId key with
  | some head => some head
  | none =>
    if soulSubjectId agentId key = legacySoulSubjectId agentId key then none
    else readIdentityHead records (legacySoulSubjectId agentId key) agentId key

-- Sound tables

/-- A row is stored under its version id, and a Soul row's subject is its pair's. -/
structure VersionRecord.Sound (record : VersionRecord) : Prop where
  id : record.id = versionId record.subjectType record.subjectId record.version
  soul : record.subjectType = .soul
    → ∃ key, record.key = some key ∧ record.subjectId = soulSubjectId record.agentId key

structure SoundRecords (records : List VersionRecord) : Prop where
  rows : ∀ record ∈ records, record.Sound
  chains : ∀ subject, Chained versionLinks (ofSubject records subject)

variable {records : List VersionRecord} {record : VersionRecord} {subject : Subject}

theorem mem_ofSubject : record ∈ ofSubject records subject
    ↔ record ∈ records ∧ record.subject = subject := by
  simp [ofSubject]

theorem SoundRecords.readHead_eq (h : SoundRecords records) (subject : Subject)
    : readHead records subject = (ofSubject records subject).head? :=
  (h.chains subject).newest_eq

theorem SoundRecords.readIdentityHead_none (h : SoundRecords records) {subjectId : String}
    (other : subjectId ≠ soulSubjectId agentId key)
    : readIdentityHead records subjectId agentId key = none := by
  have noRow : (ofSubject records { subjectType := .soul, subjectId }).filter
      (fun record => record.agentId = agentId ∧ record.key = some key) = [] := by
    rw [List.filter_eq_nil_iff]
    intro row member
    obtain ⟨stored, ofRow⟩ := mem_ofSubject.mp member
    obtain ⟨ofType, ofId⟩ := Subject.mk.inj ofRow
    simp only [decide_eq_true_eq]
    rintro ⟨sameAgent, sameKey⟩
    obtain ⟨rowKey, keyed, pair⟩ := (h.rows row stored).soul ofType
    obtain rfl := Option.some.inj (keyed.symm.trans sameKey)
    exact other (by rw [← ofId, pair, sameAgent])
  rw [readIdentityHead, noRow]
  rfl

theorem SoundRecords.readSoulHead_eq (h : SoundRecords records) (agentId key : String)
    : readSoulHead records agentId key
      = readHead records { subjectType := .soul, subjectId := soulSubjectId agentId key } := by
  have all : (ofSubject records
        { subjectType := .soul, subjectId := soulSubjectId agentId key }).filter
      (fun record => record.agentId = agentId ∧ record.key = some key)
      = ofSubject records { subjectType := .soul, subjectId := soulSubjectId agentId key } := by
    rw [List.filter_eq_self]
    intro row member
    obtain ⟨stored, ofRow⟩ := mem_ofSubject.mp member
    obtain ⟨ofType, ofId⟩ := Subject.mk.inj ofRow
    obtain ⟨rowKey, keyed, pair⟩ := (h.rows row stored).soul ofType
    obtain ⟨sameAgent, sameKey⟩ := soulSubjectId_inj (pair.symm.trans ofId)
    simp [sameAgent, keyed, sameKey]
  have encoded : readIdentityHead records (soulSubjectId agentId key) agentId key
      = readHead records { subjectType := .soul, subjectId := soulSubjectId agentId key } := by
    rw [readIdentityHead, all]
    rfl
  unfold readSoulHead
  rw [encoded]
  split
  · rename_i head found
    exact found.symm
  rename_i absent
  split
  · exact absent.symm
  · rename_i different
    rw [absent]
    exact h.readIdentityHead_none (Ne.symm different)

-- Writes

/-- The record follows the head: the next sequence and id, naming the head's hash. -/
structure Follows (head : Option VersionRecord) (record : VersionRecord) : Prop where
  sound : record.Sound
  version : record.version = nextSeq versionLinks head
  previous : record.previousVersionHash = head.map VersionRecord.recordHash

theorem Follows.fresh (h : Follows (readHead records record.subject) record)
    (sound : SoundRecords records)
    : ∀ other ∈ records, other.id ≠ record.id := by
  intro other member sameId
  rw [(sound.rows other member).id, h.sound.id] at sameId
  obtain ⟨sameType, sameSubject, sameVersion⟩ := versionId_inj sameId
  have isOf : other ∈ ofSubject records record.subject := by
    refine mem_ofSubject.mpr ⟨member, ?_⟩
    simp [VersionRecord.subject, sameType, sameSubject]
  have chain := sound.chains record.subject
  have bound := chain.seq_le isOf
  have next := h.version
  rw [sound.readHead_eq] at next
  cases rows : ofSubject records record.subject with
  | nil =>
    rw [rows] at isOf
    cases isOf
  | cons head rest =>
    rw [rows] at next bound chain
    have top := chain.1
    change other.version ≤ _ at bound
    change head.version = _ at top
    change record.version = head.version + 1 at next
    simp only [List.length_cons] at bound
    omega

theorem Follows.put_eq (h : Follows (readHead records record.subject) record)
    (sound : SoundRecords records)
    : putRecord records record = record :: records := by
  have all : records.filter (fun other => other.id ≠ record.id) = records := by
    rw [List.filter_eq_self]
    intro other member
    simpa using h.fresh sound other member
  rw [putRecord, all]

theorem ofSubject_cons (other : VersionRecord)
    : ofSubject (other :: records) subject
      = if other.subject = subject then other :: ofSubject records subject
        else ofSubject records subject := by
  by_cases same : other.subject = subject <;> simp [ofSubject, same]

theorem Follows.put (h : Follows (readHead records record.subject) record)
    (sound : SoundRecords records)
    : SoundRecords (putRecord records record) := by
  rw [h.put_eq sound]
  refine ⟨?_, ?_⟩
  · intro other member
    rcases List.mem_cons.mp member with rfl | stored
    · exact h.sound
    · exact sound.rows other stored
  · intro subject
    rw [ofSubject_cons]
    split
    · rename_i same
      subst same
      apply (sound.chains record.subject).cons
      · rw [← sound.readHead_eq]
        exact h.version
      · rw [← sound.readHead_eq]
        exact h.previous
    · exact sound.chains subject

theorem Follows.ofSubject_put (h : Follows (readHead records record.subject) record)
    (sound : SoundRecords records) (other : record.subject ≠ subject)
    : ofSubject (putRecord records record) subject = ofSubject records subject := by
  rw [h.put_eq sound, ofSubject_cons, if_neg other]

theorem ofSubject_delete_of_absent {id : String}
    (absent : ∀ row ∈ ofSubject records subject, row.id ≠ id)
    : ofSubject (deleteRecord records id) subject = ofSubject records subject := by
  unfold ofSubject deleteRecord at *
  rw [List.filter_filter]
  apply List.filter_congr
  intro row member
  by_cases same : row.subject = subject
  · have different := absent row (by simp [member, same])
    simp [different]
  · simp [same]

variable {head : VersionRecord}

theorem SoundRecords.ofSubject_deleteHead (h : SoundRecords records)
    (isHead : readHead records subject = some head)
    : ofSubject (deleteRecord records head.id) subject = (ofSubject records subject).tail := by
  rw [h.readHead_eq] at isHead
  have commute : ofSubject (deleteRecord records head.id) subject
      = deleteRecord (ofSubject records subject) head.id := by
    simp only [ofSubject, deleteRecord, List.filter_filter, Bool.and_comm]
  rw [commute]
  have chain := h.chains subject
  cases rows : ofSubject records subject with
  | nil =>
    rw [rows] at isHead
    cases isHead
  | cons first rest =>
    rw [rows] at isHead chain
    obtain rfl := Option.some.inj isHead
    have others : rest.filter (fun row => row.id ≠ first.id) = rest := by
      rw [List.filter_eq_self]
      intro row member
      have bound := chain.tail.seq_le member
      have top := chain.1
      change row.version ≤ _ at bound
      change first.version = _ at top
      have stored : row ∈ records :=
        (mem_ofSubject.mp (rows ▸ List.mem_cons_of_mem _ member)).1
      have storedFirst : first ∈ records :=
        (mem_ofSubject.mp (rows ▸ List.mem_cons_self)).1
      have different : row.id ≠ first.id := by
        intro sameId
        rw [(h.rows row stored).id, (h.rows first storedFirst).id] at sameId
        have sameVersion := (versionId_inj sameId).2.2
        omega
      simpa using different
    rw [deleteRecord, List.filter_cons_of_neg (by simp)]
    exact others

theorem SoundRecords.ofSubject_delete_other (h : SoundRecords records) (stored : head ∈ records)
    (other : head.subject ≠ subject)
    : ofSubject (deleteRecord records head.id) subject = ofSubject records subject := by
  apply ofSubject_delete_of_absent
  intro row member sameId
  obtain ⟨rowStored, ofRow⟩ := mem_ofSubject.mp member
  rw [(h.rows row rowStored).id, (h.rows head stored).id] at sameId
  obtain ⟨sameType, sameSubject, -⟩ := versionId_inj sameId
  apply other
  rw [← ofRow]
  simp [VersionRecord.subject, sameType, sameSubject]

theorem readHead_mem (h : SoundRecords records) (isHead : readHead records subject = some head)
    : head ∈ records ∧ head.subject = subject := by
  rw [h.readHead_eq] at isHead
  exact mem_ofSubject.mp (List.mem_of_mem_head? isHead)

theorem SoundRecords.deleteHead (h : SoundRecords records)
    (isHead : readHead records subject = some head)
    : SoundRecords (deleteRecord records head.id) := by
  obtain ⟨stored, ofHead⟩ := readHead_mem h isHead
  refine ⟨?_, ?_⟩
  · intro row member
    exact h.rows row (List.mem_of_mem_filter member)
  intro other
  by_cases same : head.subject = other
  · obtain rfl : subject = other := ofHead.symm.trans same
    rw [h.ofSubject_deleteHead isHead]
    cases rows : ofSubject records subject with
    | nil => trivial
    | cons first rest =>
      have chain := h.chains subject
      rw [rows] at chain
      exact chain.tail
  · rw [h.ofSubject_delete_other stored same]
    exact h.chains other

end Flair.InstructionVersions
