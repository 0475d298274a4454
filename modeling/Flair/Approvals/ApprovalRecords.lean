import Flair.Foundations.Values

/-! Approval records: what the store writes for one and what it reads back. A record file is
the value its text holds, or why its text holds none.
-/

namespace Flair.Approvals

open Dynamic

inductive ApprovalAdmission where
  | sidecar
  | legacy
deriving DecidableEq

structure ApprovalRecord where
  sha256 : String
  admission : ApprovalAdmission
  approvedAt : String
  approvedBy : String
  archiveName : String
  size : Nat
  revokedAt : Option String
  revokedBy : Option String
deriving DecidableEq

def RECORD_KEYS : List String :=
  ["version", "sha256", "admission", "approvedAt", "approvedBy", "archiveName", "size",
    "revokedAt", "revokedBy"]

def admissionText : ApprovalAdmission → String
  | .sidecar => "sidecar"
  | .legacy => "legacy"

def nullable : Option String → Value
  | none => .null
  | some text => .str text

/-- `record[key]` of a record's nine keys. -/
def ApprovalRecord.field (record : ApprovalRecord) : String → Value
  | "version" => .num 1
  | "sha256" => .str record.sha256
  | "admission" => .str (admissionText record.admission)
  | "approvedAt" => .str record.approvedAt
  | "approvedBy" => .str record.approvedBy
  | "archiveName" => .str record.archiveName
  | "size" => .num record.size
  | "revokedAt" => nullable record.revokedAt
  | "revokedBy" => nullable record.revokedBy
  | _ => .null

def serializeRecord (record : ApprovalRecord) : Value :=
  .obj (RECORD_KEYS.map fun key => (key, record.field key))

/-- `nonEmptyString`, with the string it finds. -/
def nonEmptyString (value : Option Value) : Option String :=
  (asString value).filter (· != "")

def admissionOf : Option Value → Option ApprovalAdmission
  | some (.str "sidecar") => some .sidecar
  | some (.str "legacy") => some .legacy
  | _ => none

def readRevocation (value : Value) : Except String (Option String × Option String) :=
  match value.member "revokedAt", value.member "revokedBy" with
  | some .null, some .null => .ok (none, none)
  | revokedAt, revokedBy =>
    match nonEmptyString revokedAt, nonEmptyString revokedBy with
    | some at_, some by_ => .ok (some at_, some by_)
    | _, _ => .error "the record's revokedAt and revokedBy are not both null or both set"

def readFields (value : Value) (sha256 : String) : Except String ApprovalRecord :=
  if value.member "version" ≠ some (.num 1) then .error "the record version is not 1"
  else if value.member "sha256" ≠ some (.str sha256) then
    .error "the record's sha256 does not match its file name"
  else
    match admissionOf (value.member "admission") with
    | none => .error "the record's admission is not sidecar or legacy"
    | some admission =>
      match nonEmptyString (value.member "approvedAt"),
          nonEmptyString (value.member "approvedBy") with
      | some approvedAt, some approvedBy =>
        match asString (value.member "archiveName") with
        | none => .error "the record's archiveName is not a string"
        | some archiveName =>
          match safeCount (value.member "size") with
          | none => .error "the record's size is not a non-negative integer"
          | some size => do
              let (revokedAt, revokedBy) ← readRevocation value
              .ok {
                sha256, admission, approvedAt, approvedBy, archiveName, size
                revokedAt, revokedBy }
      | _, _ => .error "the record has no approval time or operator"

/-- `parseApprovalRecord`; the digest is the one the file's name claims. -/
def parseApprovalRecord (content : Except String Value) (sha256 : String)
    : Except String ApprovalRecord :=
  match content with
  | .error reason => .error reason
  | .ok (.obj fields) =>
    if (fields.map Prod.fst).isPerm RECORD_KEYS then readFields (.obj fields) sha256
    else .error "the record's fields are not exactly those of a record"
  | .ok _ => .error "the record is not a JSON object"

theorem nonEmptyString_str (text : String)
    : nonEmptyString (some (.str text)) = if text = "" then none else some text := by
  unfold nonEmptyString asString
  by_cases empty : text = "" <;> simp [Option.filter, empty]

theorem nonEmptyString_eq_some {value : Option Value} {text : String}
    : nonEmptyString value = some text ↔ value = some (.str text) ∧ text ≠ "" := by
  rw [nonEmptyString, Option.filter_eq_some_iff, asString_eq_some]
  simp

theorem safeCount_bounded {value : Option Value} {count : Nat} (read : safeCount value = some count)
    : count < 2 ^ 53 := by
  unfold safeCount at read
  split at read
  case h_1 amount =>
    rw [Option.ite_none_right_eq_some] at read
    obtain ⟨⟨-, nonneg, small⟩, same⟩ := read
    have same := Option.some.inj same
    have bound : ((2 : Int) ^ 53) = ((2 ^ 53 : Nat) : Int) := by norm_cast
    rw [bound] at small
    omega
  · contradiction

theorem member_serializeRecord (record : ApprovalRecord)
    : (serializeRecord record).member "version" = some (.num 1)
      ∧ (serializeRecord record).member "sha256" = some (.str record.sha256)
      ∧ (serializeRecord record).member "admission"
        = some (.str (admissionText record.admission))
      ∧ (serializeRecord record).member "approvedAt" = some (.str record.approvedAt)
      ∧ (serializeRecord record).member "approvedBy" = some (.str record.approvedBy)
      ∧ (serializeRecord record).member "archiveName" = some (.str record.archiveName)
      ∧ (serializeRecord record).member "size" = some (.num record.size)
      ∧ (serializeRecord record).member "revokedAt" = some (nullable record.revokedAt)
      ∧ (serializeRecord record).member "revokedBy" = some (nullable record.revokedBy) :=
  ⟨rfl, rfl, rfl, rfl, rfl, rfl, rfl, rfl, rfl⟩

theorem admissionOf_admissionText (admission : ApprovalAdmission)
    : admissionOf (some (.str (admissionText admission))) = some admission := by
  cases admission <;> rfl

-- What the parser returns

def Revocation (revokedAt revokedBy : Option String) : Prop :=
  (revokedAt = none ∧ revokedBy = none)
    ∨ ∃ at_ by_, revokedAt = some at_ ∧ revokedBy = some by_ ∧ at_ ≠ "" ∧ by_ ≠ ""

/-- What the parser requires of a record: a time and an operator, a safe size, and both or
neither of the revocation's parts.
-/
structure ApprovalRecord.WellFormed (record : ApprovalRecord) : Prop where
  approvedAt : record.approvedAt ≠ ""
  approvedBy : record.approvedBy ≠ ""
  size : record.size < 2 ^ 53
  revoked : Revocation record.revokedAt record.revokedBy

theorem revocation_of_read {value : Value} {revokedAt revokedBy : Option String}
    (read : readRevocation value = .ok (revokedAt, revokedBy))
    : Revocation revokedAt revokedBy := by
  unfold readRevocation at read
  split at read
  · obtain ⟨rfl, rfl⟩ := Prod.mk.inj (Except.ok.inj read)
    exact .inl ⟨rfl, rfl⟩
  split at read
  case h_1 at_ by_ timed named =>
    obtain ⟨rfl, rfl⟩ := Prod.mk.inj (Except.ok.inj read)
    exact .inr ⟨at_, by_, rfl, rfl, (nonEmptyString_eq_some.mp timed).2,
      (nonEmptyString_eq_some.mp named).2⟩
  · contradiction

variable {record : ApprovalRecord}

theorem wellFormed_of_readFields {value : Value} {sha256 : String}
    (read : readFields value sha256 = .ok record)
    : record.WellFormed ∧ record.sha256 = sha256 := by
  unfold readFields at read
  split at read
  · contradiction
  split at read
  · contradiction
  split at read
  · contradiction
  split at read
  case h_2 => contradiction
  case h_1 approvedAt approvedBy timed named =>
    split at read
    · contradiction
    split at read
    · contradiction
    case h_2 size counted =>
      obtain ⟨⟨revokedAt, revokedBy⟩, revocation, built⟩ := bind_eq_ok.mp read
      cases built
      exact ⟨⟨(nonEmptyString_eq_some.mp timed).2, (nonEmptyString_eq_some.mp named).2,
        safeCount_bounded counted, revocation_of_read revocation⟩, rfl⟩

theorem wellFormed_of_parse {content : Except String Value} {sha256 : String}
    (read : parseApprovalRecord content sha256 = .ok record)
    : record.WellFormed ∧ record.sha256 = sha256 := by
  unfold parseApprovalRecord at read
  split at read
  · contradiction
  · split at read
    · exact wellFormed_of_readFields read
    · contradiction
  · contradiction

theorem readRevocation_serializeRecord (revocation : Revocation record.revokedAt record.revokedBy)
    : readRevocation (serializeRecord record) = .ok (record.revokedAt, record.revokedBy) := by
  obtain ⟨-, -, -, -, -, -, -, atMember, byMember⟩ := member_serializeRecord record
  rw [readRevocation, atMember, byMember]
  rcases revocation with ⟨noTime, noName⟩ | ⟨at_, by_, timed, named, someTime, someName⟩
  · rw [noTime, noName]
    rfl
  · rw [timed, named]
    simp only [nullable, nonEmptyString_str, if_neg someTime, if_neg someName]

theorem keys_serializeRecord (record : ApprovalRecord)
    : parseApprovalRecord (.ok (serializeRecord record)) record.sha256
      = readFields (serializeRecord record) record.sha256 := by
  have keys : (RECORD_KEYS.map fun key => (key, record.field key)).map Prod.fst
      = RECORD_KEYS := by
    rw [List.map_map]
    exact List.map_id RECORD_KEYS
  rw [serializeRecord, parseApprovalRecord, keys]
  exact if_pos (List.isPerm_iff.mpr (List.Perm.refl RECORD_KEYS))

theorem parseApprovalRecord_serializeRecord
    : parseApprovalRecord (.ok (serializeRecord record)) record.sha256 = .ok record
      ↔ record.WellFormed := by
  constructor
  · exact fun read => (wellFormed_of_parse read).1
  intro wellFormed
  obtain ⟨version, sha, admission, approvedAt, approvedBy, archiveName, size, -, -⟩ :=
    member_serializeRecord record
  have times : nonEmptyString (some (.str record.approvedAt)) = some record.approvedAt := by
    rw [nonEmptyString_str, if_neg wellFormed.approvedAt]
  have names : nonEmptyString (some (.str record.approvedBy)) = some record.approvedBy := by
    rw [nonEmptyString_str, if_neg wellFormed.approvedBy]
  rw [keys_serializeRecord, readFields, version, sha, admission, approvedAt, approvedBy,
    archiveName, size, admissionOf_admissionText, times, names,
    safeCount_num _ wellFormed.size, readRevocation_serializeRecord wellFormed.revoked,
    if_neg (not_not_intro rfl), if_neg (not_not_intro rfl)]
  rfl

end Flair.Approvals
