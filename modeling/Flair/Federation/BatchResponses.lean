import Flair.Federation.SkipReasons
import Flair.Foundations.Values

/-! The answer to one batch of records as it crosses the wire, and the sender's reading of
it: the counts, the two outcome lists, and the check that they account for every offered
record. Follows `sendBatch` of `src/commands/federation.ts`.
-/

namespace Flair.Federation

open Dynamic

structure RecordKey where
  table : String
  id : String
deriving DecidableEq

/-- An entry of a response's `refused` list, as the receiver writes it. -/
structure RefusedEntry where
  key : RecordKey
  reason : String
deriving DecidableEq

-- Reading a response

/-- `isSyncBatchCount`: the count, when it is one within the batch. -/
def isSyncBatchCount (value : Option Value) (batchSize : Nat) : Option Nat :=
  (safeCount value).filter (fun count => count ≤ batchSize)

/-- `parseSyncBatchCounts`: the merged and skipped counts of a valid response. -/
def parseSyncBatchCounts (body : Value) (batchSize : Nat) : Option (Nat × Nat) :=
  (isSyncBatchCount (body.member "merged") batchSize).bind fun merged =>
    (isSyncBatchCount (body.member "skipped") batchSize).bind fun skipped =>
      if merged + skipped ≤ batchSize then some (merged, skipped) else none

/-- The key of an entry with string `table` and `id`. -/
def parseKey (entry : Value) : Option RecordKey :=
  (asString (entry.member "table")).bind fun table =>
    (asString (entry.member "id")).map fun id => { table, id }

def parseRefusedEntry (entry : Value) : Option RefusedEntry :=
  (parseKey entry).bind fun key =>
    (asString (entry.member "reason")).map fun reason => { key, reason }

def listField (body : Value) (field : String) : List Value :=
  match body.member field with
  | some (.arr items) => items
  | _ => []

/-- `parseSyncBatchRefused`: the well-formed refusals. -/
def parseSyncBatchRefused (body : Value) : List RefusedEntry :=
  (listField body "refused").filterMap parseRefusedEntry

/-- `parseSyncBatchIndeterminate`: the well-formed indeterminate entries. -/
def parseSyncBatchIndeterminate (body : Value) : List RecordKey :=
  (listField body "indeterminate").filterMap parseKey

/-- A list field is absent, or an array with no malformed entry. -/
def validList (raw : Option Value) (parsed : Nat) : Bool :=
  match raw with
  | none => true
  | some (.arr items) => decide (items.length = parsed)
  | some _ => false

/-- What `sendBatch` returns for one answered batch. -/
structure BatchResult where
  merged : Nat
  skipped : Nat
  refused : List RefusedEntry
  indeterminate : List RecordKey
deriving DecidableEq

/-- The outcomes account for every offered record: each is offered, none stands twice, and
with the merged ones they are as many as the batch.
-/
def outcomesAccount (batch : List RecordKey) (body : Value) (result : BatchResult) : Bool :=
  let unresolved := result.refused.map RefusedEntry.key ++ result.indeterminate
  validList (body.member "refused") result.refused.length
  && validList (body.member "indeterminate") result.indeterminate.length
  && decide (∀ key ∈ unresolved, key ∈ batch)
  && decide unresolved.Nodup
  && decide (result.skipped = result.refused.length)
  && decide
    (result.merged + result.refused.length + result.indeterminate.length = batch.length)

/-- The validation of a response body in `sendBatch`; `none` is the thrown error that fails
the run. Only Memory batches and those of the Presence pass need a full account.
-/
def readBatchResponse (batch : List RecordKey) (validatePresence : Bool) (body : Value)
    : Option BatchResult :=
  (parseSyncBatchCounts body batch.length).bind fun (merged, skipped) =>
    let result : BatchResult := {
      merged
      skipped
      refused := parseSyncBatchRefused body
      indeterminate := parseSyncBatchIndeterminate body
    }
    if validatePresence ∨ batch.head?.map RecordKey.table = some "Memory" then
      if outcomesAccount batch body result then some result else none
    else some result

-- Writing a response

/-- The body of a successful `FederationSync.post`. -/
structure SyncResponse where
  merged : Nat
  skipped : Nat
  skippedReasons : List (SkipReason × Nat)
  refused : List (RecordKey × SkipReason)
  indeterminate : List RecordKey
  total : Nat
  durationMs : Nat
  syncLogWritten : Bool
deriving DecidableEq

def countValue (count : Nat) : Value := .num count

def RecordKey.toJson (key : RecordKey) : Value :=
  .obj [("id", .str key.id), ("table", .str key.table)]

def refusedToJson (entry : RecordKey × SkipReason) : Value :=
  .obj [("id", .str entry.1.id), ("reason", .str entry.2.text), ("table", .str entry.1.table)]

def SyncResponse.toJson (response : SyncResponse) : Value :=
  .obj [
    ("durationMs", countValue response.durationMs),
    ("indeterminate", .arr (response.indeterminate.map RecordKey.toJson)),
    ("merged", countValue response.merged),
    ("refused", .arr (response.refused.map refusedToJson)),
    ("skipped", countValue response.skipped),
    ("skippedReasons",
      .obj (response.skippedReasons.map fun entry => (entry.1.text, countValue entry.2))),
    ("syncLogWritten", .bool response.syncLogWritten),
    ("total", countValue response.total)
  ]

def refusedEntry (entry : RecordKey × SkipReason) : RefusedEntry where
  key := entry.1
  reason := entry.2.text

theorem parseSyncBatchRefused_toJson (response : SyncResponse)
    : parseSyncBatchRefused response.toJson = response.refused.map refusedEntry := by
  have field : listField response.toJson "refused" = response.refused.map refusedToJson := rfl
  rw [parseSyncBatchRefused, field, List.filterMap_map]
  have reads : parseRefusedEntry ∘ refusedToJson = some ∘ refusedEntry := rfl
  rw [reads, List.filterMap_eq_map]

theorem parseSyncBatchIndeterminate_toJson (response : SyncResponse)
    : parseSyncBatchIndeterminate response.toJson = response.indeterminate := by
  have field : listField response.toJson "indeterminate"
      = response.indeterminate.map RecordKey.toJson := rfl
  rw [parseSyncBatchIndeterminate, field, List.filterMap_map]
  have reads : parseKey ∘ RecordKey.toJson = some := rfl
  rw [reads, List.filterMap_some]

theorem parseSyncBatchCounts_toJson {response : SyncResponse} {batchSize : Nat}
    (small : batchSize < 2 ^ 32) (within : response.merged + response.skipped ≤ batchSize)
    : parseSyncBatchCounts response.toJson batchSize
      = some (response.merged, response.skipped) := by
  have merged : isSyncBatchCount (response.toJson.member "merged") batchSize
      = some response.merged := by
    have field : response.toJson.member "merged" = some (.num response.merged) := rfl
    have count : safeCount (some (.num response.merged)) = some response.merged :=
      safeCount_num response.merged (by omega)
    rw [isSyncBatchCount, field, count]
    simp [Option.filter, show response.merged ≤ batchSize by omega]
  have skipped : isSyncBatchCount (response.toJson.member "skipped") batchSize
      = some response.skipped := by
    have field : response.toJson.member "skipped" = some (.num response.skipped) := rfl
    have count : safeCount (some (.num response.skipped)) = some response.skipped :=
      safeCount_num response.skipped (by omega)
    rw [isSyncBatchCount, field, count]
    simp [Option.filter, show response.skipped ≤ batchSize by omega]
  simp [parseSyncBatchCounts, merged, skipped, within]

end Flair.Federation
