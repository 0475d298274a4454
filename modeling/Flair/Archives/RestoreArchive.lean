import Flair.Archives.Utf8Decoding

/-! Restore archives: the shape an archive must have, and the admission of a selection of its
Memory rows. Follows the archive part of `src/lib/restore-archive.ts`.
-/

namespace Flair.Archives

variable {ν : Type}

local instance : LawfulBEq Units := List.instLawfulBEq

structure NumberChecks (ν : Type) where
  isVersion : ν → Bool
  isInteger : ν → Bool
  isFinite : ν → Bool

def recordOf : Json ν → Option (List (Units × Json ν))
  | .obj members => some members
  | _ => none

def ownValue (record : List (Units × Json ν)) (field : String) : Option (Json ν) :=
  InsertionMap.get record (ascii field)

def asText : Option (Json ν) → Option Units
  | some (.str units) => some units
  | _ => none

/-- `value ?? null`, none when it is null. -/
def present : Option (Json ν) → Option (Json ν)
  | some .null => none
  | value => value

-- Rows

structure Problem where
  reason : String
  field : Option String

def isHighSurrogate (c : Nat) : Bool := decide (0xd800 ≤ c ∧ c ≤ 0xdbff)

def isLowSurrogate (c : Nat) : Bool := decide (0xdc00 ≤ c ∧ c ≤ 0xdfff)

/-- `encodeURIComponent` refuses a surrogate that is not half of a pair. -/
def pairedSurrogates : Units → Bool
  | [] => true
  | [c] => !isHighSurrogate c && !isLowSurrogate c
  | c :: d :: rest =>
    if isHighSurrogate c then isLowSurrogate d && pairedSurrogates rest
    else !isLowSurrogate c && pairedSurrogates (d :: rest)

/-- `encodeRecordId` does not throw. -/
def encodesRecordId (id : Units) : Bool :=
  id ≠ ascii "." && id ≠ ascii ".." && pairedSurrogates id

def rowShapeProblem (row : Json ν) (owned : Bool) : Option Problem :=
  match recordOf row with
  | none => some ⟨"the row is not a JSON object", none⟩
  | some record =>
    match asText (ownValue record "id") with
    | none => some ⟨"the row id is not a non-empty string", some "id"⟩
    | some id =>
      if id = [] then some ⟨"the row id is not a non-empty string", some "id"⟩
      else if 0x2e ∈ id then
        some ⟨"the row id contains \".\", which admission conservatively refuses because a "
          ++ "suffix such as \".json\" or \".content\" can be read as a content type or an "
          ++ "attribute selector", some "id"⟩
      else if !encodesRecordId id then
        some ⟨"the row id does not address exactly one record path segment", some "id"⟩
      else if owned && ((asText (ownValue record "agentId")).getD []).isEmpty then
        some ⟨"the row agentId is not a non-empty string", some "agentId"⟩
      else none

inductive ColumnType where
  | id | string | int | float | boolean | strings | floats

def ColumnType.words : ColumnType → String × String
  | id => ("ID", "a string")
  | string => ("String", "a string")
  | int => ("Int", "an integer")
  | float => ("Float", "a number")
  | boolean => ("Boolean", "a boolean")
  | strings => ("String[]", "an array of strings")
  | floats => ("Float[]", "an array of numbers")

def isText : Json ν → Bool
  | .str _ => true
  | _ => false

def holdsColumnType (checks : NumberChecks ν) (value : Json ν) : ColumnType → Bool
  | .id | .string => isText value
  | .int => match value with
      | .num number => checks.isInteger number
      | _ => false
  | .float => match value with
      | .num number => checks.isFinite number
      | _ => false
  | .boolean => match value with
      | .bool _ => true
      | _ => false
  | .strings => match value with
      | .arr items => items.all isText
      | _ => false
  | .floats => match value with
      | .arr items => items.all fun item => match item with
          | .num number => checks.isFinite number
          | _ => false
      | _ => false

/-- A table that restore writes: its columns in schema order, those the schema requires, and
the required ones the write supplies.
-/
structure RestoreTable where
  name : String
  columns : List (String × ColumnType)
  required : List String
  supplied : List String

def agentTable : RestoreTable where
  name := "Agent"
  columns := [("id", .id), ("name", .string), ("role", .string), ("type", .string),
    ("kind", .string), ("displayName", .string), ("status", .string), ("publicKey", .string),
    ("defaultTrustTier", .string), ("admin", .boolean), ("runtime", .string),
    ("runtimeEndpoint", .string), ("subjects", .strings), ("createdAt", .string),
    ("updatedAt", .string), ("originatorInstanceId", .string)]
  required := ["name", "publicKey", "createdAt"]
  supplied := ["createdAt", "publicKey"]

def soulTable : RestoreTable where
  name := "Soul"
  columns := [("id", .id), ("agentId", .string), ("key", .string), ("value", .string),
    ("priority", .string), ("metadata", .string), ("provenance", .string),
    ("durability", .string), ("createdAt", .string), ("updatedAt", .string),
    ("originatorInstanceId", .string)]
  required := ["agentId", "key", "value", "createdAt"]
  supplied := ["createdAt"]

def memoryTable : RestoreTable where
  name := "Memory"
  columns := [("id", .id), ("agentId", .string), ("content", .string), ("contentHash", .string),
    ("trigger", .string), ("visibility", .string), ("embedding", .floats),
    ("embeddingModel", .string), ("embeddedContentHash", .string), ("tags", .strings),
    ("durability", .string), ("source", .string), ("type", .string), ("createdAt", .string),
    ("updatedAt", .string), ("instanceToken", .string), ("expiresAt", .string),
    ("retrievalCount", .int), ("lastRetrieved", .string), ("usageCount", .int),
    ("writeBackWriteId", .string), ("promotionStatus", .string), ("promotedAt", .string),
    ("promotedBy", .string), ("promotionContentHash", .string), ("archived", .boolean),
    ("archivedAt", .string), ("archivedBy", .string), ("parentId", .string),
    ("derivedFrom", .strings), ("sessionId", .string), ("lastReflected", .string),
    ("supersedes", .string), ("subject", .string), ("summary", .string),
    ("validFrom", .string), ("validTo", .string), ("_safetyFlags", .strings),
    ("provenance", .string), ("originatorInstanceId", .string), ("metadata", .string),
    ("entities", .strings), ("skillSubjectId", .string)]
  required := ["agentId", "content", "createdAt"]
  supplied := ["createdAt"]

def rowSchemaProblem (checks : NumberChecks ν) (row : Json ν) (table : RestoreTable)
    : Option Problem :=
  table.columns.findSome? fun (field, type) =>
    match present (ownValue ((recordOf row).getD []) field) with
    | none =>
      if field ∈ table.required ∧ field ∉ table.supplied then
        some ⟨"the row has no " ++ field ++ " (the schema requires " ++ type.words.1 ++ ")",
          some field⟩
      else none
    | some value =>
      if holdsColumnType checks value type then none
      else
        some ⟨"the row " ++ field ++ " is not " ++ type.words.2 ++ " (the schema declares "
          ++ type.words.1 ++ ")", some field⟩

-- Archives

inductive ShapeCode where
  | invalidArchive | unsupportedVersion | invalidCollection | invalidRow | duplicateId

inductive ShapeReason where
  | text (message : String)
  | repeated (table : String) (id : Units) (first : String)

structure ShapeRefusal where
  code : ShapeCode
  reason : ShapeReason
  location : String

def rowId (row : Json ν) : Option Units := (recordOf row).bind fun record =>
  asText (ownValue record "id")

def rowsRefusal (checks : NumberChecks ν) (key : String) (table : RestoreTable) (owned : Bool)
    (seen : InsertionMap Units Nat) (index : Nat)
    : List (Json ν) → Option ShapeRefusal
  | [] => none
  | row :: rest =>
    let location := "/" ++ key ++ "/" ++ toString index
    match rowShapeProblem row owned <|> rowSchemaProblem checks row table with
    | some problem => some {
        code := .invalidRow
        reason := .text (table.name ++ " row " ++ toString index ++ ": " ++ problem.reason)
        location := location ++ (problem.field.elim "" fun field => "/" ++ field) }
    | none =>
      let id := (rowId row).getD []
      match InsertionMap.get seen id with
      | some first => some {
          code := .duplicateId
          reason := .repeated table.name id ("/" ++ key ++ "/" ++ toString first)
          location := location ++ "/id" }
      | none =>
        rowsRefusal checks key table owned (InsertionMap.set seen id index) (index + 1) rest

def collections : List (String × RestoreTable × Bool) :=
  [("agents", agentTable, false), ("souls", soulTable, true), ("memories", memoryTable, true)]

def archiveShapeRefusal (checks : NumberChecks ν) (doc : Json ν) : Option ShapeRefusal :=
  match recordOf doc with
  | none => some ⟨.invalidArchive, .text "the archive is not a JSON object", ""⟩
  | some record =>
    match ownValue record "version" with
    | some (.num version) =>
      if checks.isVersion version then
        collections.findSome? fun (key, table, owned) =>
          match ownValue record key with
          | some (.arr rows) => rowsRefusal checks key table owned [] 0 rows
          | _ => some ⟨.invalidCollection,
              .text ("the " ++ key ++ " collection is missing or not an array"), "/" ++ key⟩
      else some ⟨.unsupportedVersion, .text "the archive version is not 1", "/version"⟩
    | _ => some ⟨.unsupportedVersion, .text "the archive version is not 1", "/version"⟩

def byteLength : Units → Nat
  | [] => 0
  | [c] => if c < 0x80 then 1 else if c < 0x800 then 2 else 3
  | c :: d :: rest =>
    if isHighSurrogate c && isLowSurrogate d then 4 + byteLength rest
    else (if c < 0x80 then 1 else if c < 0x800 then 2 else 3) + byteLength (d :: rest)

/-- A refusal of archive bytes; those of the decoding and of the reading carry an offset. -/
inductive ArchiveRefusal where
  | utf8 (refusal : Utf8Refusal)
  | json (refusal : Refusal) (offset : Nat)
  | shape (refusal : ShapeRefusal)

/-- `parseRestoreArchive`, without the digest each result carries. -/
def parseRestoreArchive (checks : NumberChecks ν) (toNumber : Units → ν) (bytes : List Nat)
    : Except ArchiveRefusal (Json ν) :=
  match decodeStrictUtf8 bytes with
  | .error refusal => .error (.utf8 refusal)
  | .ok text =>
    match parseStrictJson toNumber text with
    | .error refusal =>
      .error (.json refusal (byteLength (text.take (text.length - refusal.left))))
    | .ok archive =>
      match archiveShapeRefusal checks archive with
      | some refusal => .error (.shape refusal)
      | none => .ok archive

-- Memory admission

inductive FailureCode where
  | notInArchive | duplicateSelection | duplicateId | invalidRow | contentNotString
  | undeclaredPromotionStatus | invalidVerdictField | verdictWithoutStatus
  | approvedVerdictIncomplete | invalidBindingHash | hashWithoutVerdict | bindingMismatch
deriving DecidableEq

/-- A failure of a selected id; `field` is the archived field it concerns. -/
structure EntryFailure where
  id : Units
  code : FailureCode
  reason : String
  field : Option String
deriving DecidableEq

inductive EntryKind where
  | bound | legacyUnbound | unpromoted
deriving DecidableEq

structure RestoreEntry (ν : Type) where
  id : Units
  agentId : Units
  kind : EntryKind
  promotionStatus : Option Units
  row : Json ν

def promotionStatuses : List Units := [ascii "pending", ascii "approved", ascii "rejected"]

def isSha256Hex (text : Units) : Bool :=
  text.length = 64 && text.all fun c => isDigit c || decide (0x61 ≤ c ∧ c ≤ 0x66)

def verdictFailures (id : Units) (status value : Option (Json ν)) (field : String)
    : List EntryFailure :=
  let text := asText value
  if value.isSome && text.isNone then
    [⟨id, .invalidVerdictField, field ++ " is not a string", some field⟩]
  else if status.isNone && value.isSome then
    [⟨id, .verdictWithoutStatus, field ++ " is set without a promotionStatus", some field⟩]
  else if asText status = some (ascii "approved") && text.getD [] = [] then
    [⟨id, .approvedVerdictIncomplete, "an approved verdict has no " ++ field, some field⟩]
  else []

def hashFailures (promotionContentHash : Units → Units) (id : Units) (content : Option Units)
    (status hash : Option (Json ν))
    : List EntryFailure :=
  let field := some "promotionContentHash"
  let text := asText hash
  let wellFormed := text.any isSha256Hex
  if hash.isNone then []
  else
    (if wellFormed then []
      else [⟨id, .invalidBindingHash,
        "promotionContentHash is not 64 lowercase hex characters", field⟩])
    ++ (if status.isNone then
        [⟨id, .hashWithoutVerdict, "promotionContentHash is set without a promotionStatus",
          field⟩]
      else [])
    ++ if wellFormed && content.any fun content => text ≠ some (promotionContentHash content) then
        [⟨id, .bindingMismatch, "promotionContentHash does not bind the archived content", field⟩]
      else []

def admissionFailures (promotionContentHash : Units → Units) (id : Units)
    (record : List (Units × Json ν))
    : List EntryFailure :=
  let content := asText (ownValue record "content")
  let status := present (ownValue record "promotionStatus")
  (if content.isSome then []
    else [⟨id, .contentNotString, "content is not a string", some "content"⟩])
  ++ ((if status.isNone || (asText status).any fun text => text ∈ promotionStatuses then []
    else [⟨id, .undeclaredPromotionStatus,
      "promotionStatus is not one of pending, approved, rejected", some "promotionStatus"⟩])
  ++ (verdictFailures id status (present (ownValue record "promotedAt")) "promotedAt"
  ++ (verdictFailures id status (present (ownValue record "promotedBy")) "promotedBy"
  ++ hashFailures promotionContentHash id content status
    (present (ownValue record "promotionContentHash")))))

def validateRestoreMemoryRow (promotionContentHash : Units → Units) (row : Json ν)
    : Except (List EntryFailure) (RestoreEntry ν) :=
  let id := (rowId row).getD []
  match rowShapeProblem row true with
  | some problem => .error [⟨id, .invalidRow, problem.reason, problem.field⟩]
  | none =>
    let record := (recordOf row).getD []
    let status := present (ownValue record "promotionStatus")
    let failures := admissionFailures promotionContentHash id record
    if failures = [] then
      .ok {
        id
        agentId := (asText (ownValue record "agentId")).getD []
        kind :=
          if (present (ownValue record "promotionContentHash")).isSome then .bound
          else if status.isSome then .legacyUnbound else .unpromoted
        promotionStatus := asText status
        row }
    else .error failures

inductive SelectionCode where
  | invalidSelection | entriesRefused
deriving DecidableEq

structure SelectionRefusal where
  code : SelectionCode
  reason : String
  failures : List EntryFailure

def selectionRefusal {α : Type} (reason : String) : Except SelectionRefusal α :=
  .error ⟨.invalidSelection, reason, []⟩

def entriesRefused {α : Type} (failures : List EntryFailure) : Except SelectionRefusal α :=
  let ids := (failures.map EntryFailure.id).dedup
  .error ⟨.entriesRefused, toString ids.length ++ " selected Memory id(s) refused", failures⟩

/-- One archived row of the index by id, with the ids that stand more than once. -/
def indexRow (index : InsertionMap Units (Json ν) × List Units) (row : Json ν)
    : InsertionMap Units (Json ν) × List Units :=
  match rowId row with
  | none => index
  | some id =>
    if (InsertionMap.get index.1 id).isSome then
      (index.1, if id ∈ index.2 then index.2 else index.2 ++ [id])
    else (InsertionMap.set index.1 id row, index.2)

def repeatedFailure (id : Units) : EntryFailure :=
  ⟨id, .duplicateId, "the archive holds this Memory id more than once", none⟩

def missingFailure (id : Units) : EntryFailure :=
  ⟨id, .notInArchive, "the archive holds no Memory row with this id", none⟩

def selectionFailure (id : Units) : EntryFailure :=
  ⟨id, .duplicateSelection, "the selection names this Memory id more than once", none⟩

structure Resolving (ν : Type) where
  rows : List (Json ν)
  failures : List EntryFailure
  selected : List Units
  named : List Units

def resolveId (index : InsertionMap Units (Json ν) × List Units) (resolving : Resolving ν)
    (id : Units)
    : Resolving ν :=
  if id ∈ resolving.selected then
    if id ∈ resolving.named then resolving
    else { resolving with
      named := resolving.named ++ [id]
      failures := resolving.failures ++ [selectionFailure id] }
  else
    let resolving := { resolving with selected := resolving.selected ++ [id] }
    match InsertionMap.get index.1 id with
    | none => { resolving with failures := resolving.failures ++ [missingFailure id] }
    | some row =>
      if id ∈ index.2 then
        { resolving with failures := resolving.failures ++ [repeatedFailure id] }
      else { resolving with rows := resolving.rows ++ [row] }

def nameOf (item : Json ν) : Option Units := (asText (some item)).filter fun id => id ≠ []

/-- `resolveSelection`; a selection that is omitted is none. -/
def resolveSelection (archive : Json ν) (ids : Option (Json ν))
    : Except SelectionRefusal (List (Json ν) × List EntryFailure) :=
  match ownValue ((recordOf archive).getD []) "memories" with
  | some (.arr memories) =>
    let index := memories.foldl indexRow ([], [])
    match ids with
    | none => .ok (memories, index.2.map repeatedFailure)
    | some (.arr []) =>
      selectionRefusal
        "the selection names no Memory ids; omit it to select every Memory row"
    | some (.arr items) =>
      match items.findIdx? fun item => (nameOf item).isNone with
      | some position =>
        selectionRefusal ("selection entry " ++ toString position
          ++ " is not a non-empty string")
      | none =>
        let resolved := (items.filterMap nameOf).foldl (resolveId index) ⟨[], [], [], []⟩
        .ok (resolved.rows, resolved.failures)
    | some _ => selectionRefusal "the selection is not an array of Memory ids"
  | _ => selectionRefusal "the archive has no memories collection"

def failuresOf : Except (List EntryFailure) (RestoreEntry ν) → List EntryFailure
  | .error failures => failures
  | .ok _ => []

def validateRestoreSelection (promotionContentHash : Units → Units) (archive : Json ν)
    (ids : Option (Json ν))
    : Except SelectionRefusal (List (RestoreEntry ν)) :=
  match resolveSelection archive ids with
  | .error refusal => .error refusal
  | .ok (rows, failures) =>
    let results := rows.map (validateRestoreMemoryRow promotionContentHash)
    let failures := failures ++ results.flatMap failuresOf
    if failures = [] then .ok (results.filterMap Except.toOption)
    else entriesRefused failures

end Flair.Archives
