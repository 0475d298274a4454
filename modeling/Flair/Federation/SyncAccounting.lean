import Flair.Federation.BatchResponses
import Flair.Federation.Merge

/-! The answer of `FederationSync.post`: the batch checks, the loop over the offered records
with its deadline, and the account it gives. The sender's reading of that answer accepts it.
-/

namespace Flair.Federation

open Dynamic

-- The request

/-- The body of a sync request; `records` is `none` when it is no array. -/
structure SyncRequest where
  instanceId : String
  records : Option (Sequence Value)
  signature : String

def asNumber : Option Value → Option Rat
  | some (.num amount) => some amount
  | _ => none

/-- A batch entry as a record: its table and id are non-empty strings and its payload is an
object with that id. Optional fields of another type are read as absent.
-/
def offeredRecord (entry : Value) : Option SyncRecord :=
  match asString (entry.member "table"), asString (entry.member "id"), entry.member "data" with
  | some table, some id, some (.obj fields) =>
    let data := Record.ofFields fields
    if table = "" ∨ id = "" ∨ data.get "id" ≠ some (.str id) then none
    else some {
      table
      id
      data
      updatedAt := asString (entry.member "updatedAt")
      originatorInstanceId := asString (entry.member "originatorInstanceId")
      signature := asString (entry.member "signature")
      principalId := entry.member "principalId"
      v := asNumber (entry.member "v")
    }
  | _, _, _ => none

def SyncRecord.key (record : SyncRecord) : RecordKey where
  table := record.table
  id := record.id

def collectOffered : (offered : List RecordKey) → List Value → Except String (List SyncRecord)
  | _, [] => .ok []
  | offered, entry :: rest =>
    match offeredRecord entry with
    | none => .error "invalid_sync_batch_key"
    | some record =>
      if record.key ∈ offered then .error "duplicate_sync_batch_key"
      else (collectOffered (record.key :: offered) rest).map (record :: ·)

-- The outcome of each record

/-- How one record's merge went: a read before its write-back threw, the Memory lock was not
taken, its write-back ended, or the deadline came first.
-/
inductive Course where
  | readThrew
  | lockNotTaken
  | wrote (final : WriteBack.Phase)
  | deadline

/-- What one record's merge met: what it read, and how it went. -/
structure Turn where
  receipt : Receipt
  localRow : Option Record
  course : Course

/-- The outcome of `mergeOne` in the race with its deadline. -/
def Turn.outcome (turn : Turn) (record : SyncRecord) : MergeOutcome :=
  match turn.course with
  | .deadline => .indeterminate
  | .readThrew => .refused .mergeError
  | .lockNotTaken =>
    match prepareMerge turn.receipt record turn.localRow with
    | .error reason => .refused reason
    | .ok _ => .refused .mergeTargetBusy
  | .wrote final =>
    match prepareMerge turn.receipt record turn.localRow with
    | .error reason => .refused reason
    | .ok _ => outcomeOf final

-- The account

structure Tally where
  merged : Nat
  skipped : Nat
  skippedReasons : List (SkipReason × Nat)
  refused : List (RecordKey × SkipReason)
  indeterminate : List RecordKey

def countReason (reason : SkipReason) : List (SkipReason × Nat) → List (SkipReason × Nat)
  | [] => [(reason, 1)]
  | entry :: rest =>
    if entry.1 = reason then (reason, entry.2 + 1) :: rest
    else entry :: countReason reason rest

def Tally.recordSkip (tally : Tally) (reason : SkipReason) (record : SyncRecord) : Tally :=
  { tally with
    skipped := tally.skipped + 1
    skippedReasons := countReason reason tally.skippedReasons
    refused := tally.refused ++ [(record.key, reason)] }

def Tally.note (tally : Tally) (record : SyncRecord) : MergeOutcome → Tally
  | .refused reason => tally.recordSkip reason record
  | .merged => { tally with merged := tally.merged + 1 }
  | .indeterminate => { tally with indeterminate := tally.indeterminate ++ [record.key] }

def emptyTally : Tally where
  merged := 0
  skipped := 0
  skippedReasons := []
  refused := []
  indeterminate := []

def tallyAll (outcome : SyncRecord → MergeOutcome) (records : List SyncRecord) : Tally :=
  records.foldl (fun tally record => tally.note record (outcome record)) emptyTally

-- The request handler

/-- What a sync request meets on the hub: the peer row it reads, the answer of the signature
check, one turn for each record, and whether the writes after the loop fail.
-/
structure Hub where
  peer : Option Record
  verifyRefusal : Option (Nat × String)
  turn : SyncRecord → Turn
  peerPutFails : Bool
  syncLogFails : Bool
  durationMs : Nat

/-- The answer of `FederationSync.post`. -/
inductive SyncAnswer where
  | refused (status : Nat) (error : String)
  | threw
  | synced (response : SyncResponse)

/-- `FederationSync.post`. -/
def syncPost (hub : Hub) (request : SyncRequest) : SyncAnswer :=
  match request.records with
  | none => .refused 400 "instanceId and records[] required"
  | some records =>
    if request.instanceId = "" then .refused 400 "instanceId and records[] required"
    else
      match hub.peer with
      | none => .refused 403 "unknown or revoked peer"
      | some peer =>
        if peer.get "status" = some (.str "revoked") then
          .refused 403 "unknown or revoked peer"
        else if request.signature = "" then
          .refused 401 "signature required — sync requests must be signed"
        else
          match hub.verifyRefusal with
          | some (status, error) => .refused status error
          | none =>
            match collectOffered [] records.items with
            | .error error => .refused 400 error
            | .ok offered =>
              let tally :=
                tallyAll (fun record => (hub.turn record).outcome record) offered
              if hub.peerPutFails then .threw
              else .synced {
                merged := tally.merged
                skipped := tally.skipped
                skippedReasons := tally.skippedReasons
                refused := tally.refused
                indeterminate := tally.indeterminate
                total := records.items.length
                durationMs := hub.durationMs
                syncLogWritten := !hub.syncLogFails
              }

-- What the loop counts

def mergedKeys (outcome : SyncRecord → MergeOutcome) (records : List SyncRecord)
    : List RecordKey :=
  (records.filter (fun record => outcome record = .merged)).map SyncRecord.key

theorem sum_countReason (reason : SkipReason) (counts : List (SkipReason × Nat))
    : ((countReason reason counts).map Prod.snd).sum = (counts.map Prod.snd).sum + 1 := by
  induction counts with
  | nil => rfl
  | cons entry rest ih =>
    unfold countReason
    split
    · simp only [List.map_cons, List.sum_cons]
      omega
    · simp only [List.map_cons, List.sum_cons, ih]
      omega

structure Tally.Accounts (tally : Tally) (outcome : SyncRecord → MergeOutcome)
    (records : List SyncRecord)
    : Prop where
  merged : tally.merged = (mergedKeys outcome records).length
  skipped : tally.skipped = tally.refused.length
  reasons : (tally.skippedReasons.map Prod.snd).sum = tally.refused.length
  partition
    : (mergedKeys outcome records ++ (tally.refused.map Prod.fst ++ tally.indeterminate)).Perm
        (records.map SyncRecord.key)

/-- Noting one more outcome keeps the account, by cases on the outcome; the partition by
counting each key on both sides.
-/
theorem Tally.Accounts.note {tally : Tally} {outcome : SyncRecord → MergeOutcome}
    {records : List SyncRecord} (h : tally.Accounts outcome records) (record : SyncRecord)
    : (tally.note record (outcome record)).Accounts outcome (records ++ [record]) := by
  obtain ⟨merged, skipped, reasons, partition⟩ := h
  cases found : outcome record with
  | refused reason =>
    have same : mergedKeys outcome (records ++ [record]) = mergedKeys outcome records := by
      simp [mergedKeys, found]
    refine ⟨merged.trans (congrArg List.length same.symm), ?_, ?_, ?_⟩
    · simp [Tally.note, Tally.recordSkip, skipped]
    · simp [Tally.note, Tally.recordSkip, sum_countReason, reasons]
    rw [same, List.perm_iff_count]
    intro key
    have before := List.perm_iff_count.mp partition key
    simp only [Tally.note, Tally.recordSkip, List.map_append, List.count_append,
      List.map_cons, List.map_nil] at before ⊢
    omega
  | merged =>
    have more : mergedKeys outcome (records ++ [record])
        = mergedKeys outcome records ++ [record.key] := by
      simp [mergedKeys, found]
    refine ⟨?_, skipped, reasons, ?_⟩
    · simp [Tally.note, more, merged]
    rw [more, List.perm_iff_count]
    intro key
    have before := List.perm_iff_count.mp partition key
    simp only [Tally.note, List.map_append, List.count_append, List.map_cons,
      List.map_nil] at before ⊢
    omega
  | indeterminate =>
    have same : mergedKeys outcome (records ++ [record]) = mergedKeys outcome records := by
      simp [mergedKeys, found]
    refine ⟨merged.trans (congrArg List.length same.symm), skipped, reasons, ?_⟩
    rw [same, List.perm_iff_count]
    intro key
    have before := List.perm_iff_count.mp partition key
    simp only [Tally.note, List.map_append, List.count_append, List.map_cons,
      List.map_nil] at before ⊢
    omega

theorem tallyAll_accounts (outcome : SyncRecord → MergeOutcome) (records : List SyncRecord)
    : (tallyAll outcome records).Accounts outcome records := by
  induction records using List.reverseRecOn with
  | nil => exact ⟨rfl, rfl, rfl, List.Perm.refl _⟩
  | append_singleton seen record ih =>
    rw [tallyAll, List.foldl_append]
    exact ih.note record

theorem collectOffered_nodup {offered : List RecordKey} {entries : List Value}
    {records : List SyncRecord} (h : collectOffered offered entries = .ok records)
    : (records.map SyncRecord.key).Nodup
      ∧ (∀ record ∈ records, record.key ∉ offered)
      ∧ records.length = entries.length := by
  induction entries generalizing offered records with
  | nil =>
    cases h
    simp
  | cons entry rest ih =>
    unfold collectOffered at h
    split at h
    · cases h
    rename_i record found
    split at h
    · cases h
    rename_i fresh
    cases collected : collectOffered (record.key :: offered) rest with
    | error error => simp [collected, Except.map] at h
    | ok more =>
      simp only [collected, Except.map, Except.ok.injEq] at h
      subst h
      obtain ⟨distinct, unseen, length⟩ := ih collected
      refine ⟨?_, ?_, by simp [length]⟩
      · rw [List.map_cons, List.nodup_cons]
        refine ⟨?_, distinct⟩
        intro again
        obtain ⟨other, member, same⟩ := List.mem_map.mp again
        exact unseen other member (by simp [same])
      · intro other member
        rcases List.mem_cons.mp member with rfl | member
        · exact fresh
        · exact fun old => unseen other member (List.mem_cons_of_mem _ old)

-- The sender's side

theorem readBatchResponse_accounts {response : SyncResponse} {batch merged : List RecordKey}
    (validatePresence : Bool) (small : batch.length < 2 ^ 32) (distinct : batch.Nodup)
    (count : response.merged = merged.length)
    (skipped : response.skipped = response.refused.length)
    (partition
      : (merged ++ (response.refused.map Prod.fst ++ response.indeterminate)).Perm batch)
    : readBatchResponse batch validatePresence response.toJson
      = some {
          merged := response.merged
          skipped := response.skipped
          refused := response.refused.map refusedEntry
          indeterminate := response.indeterminate
        } := by
  have total := partition.length_eq
  simp only [List.length_append, List.length_map] at total
  have counts : parseSyncBatchCounts response.toJson batch.length
      = some (response.merged, response.skipped) :=
    parseSyncBatchCounts_toJson small (by omega)
  have keys : (response.refused.map refusedEntry).map RefusedEntry.key
      = response.refused.map Prod.fst := by
    rw [List.map_map]
    rfl
  have unresolved : (response.refused.map Prod.fst ++ response.indeterminate).Nodup :=
    (List.nodup_append.mp (partition.nodup_iff.mpr distinct)).2.1
  have known : ∀ key ∈ response.refused.map Prod.fst ++ response.indeterminate,
      key ∈ batch := by
    intro key member
    exact partition.mem_iff.mp (List.mem_append_right merged member)
  have account : outcomesAccount batch response.toJson {
      merged := response.merged
      skipped := response.skipped
      refused := response.refused.map refusedEntry
      indeterminate := response.indeterminate
    } = true := by
    have refusedList : response.toJson.member "refused"
        = some (.arr (response.refused.map refusedToJson)) := rfl
    have indeterminateList : response.toJson.member "indeterminate"
        = some (.arr (response.indeterminate.map RecordKey.toJson)) := rfl
    simp only [outcomesAccount, keys, refusedList, indeterminateList, validList,
      List.length_map, Bool.and_eq_true, decide_eq_true_eq, true_and]
    exact ⟨⟨⟨known, unresolved⟩, skipped⟩, by omega⟩
  simp [readBatchResponse, counts, parseSyncBatchRefused_toJson,
    parseSyncBatchIndeterminate_toJson, account]

def Hub.outcome (hub : Hub) (record : SyncRecord) : MergeOutcome :=
  (hub.turn record).outcome record

theorem syncPost_synced {hub : Hub} {request : SyncRequest} {response : SyncResponse}
    (h : syncPost hub request = .synced response)
    : ∃ entries offered,
        request.records = some entries
        ∧ collectOffered [] entries.items = .ok offered
        ∧ response.merged = (tallyAll hub.outcome offered).merged
        ∧ response.skipped = (tallyAll hub.outcome offered).skipped
        ∧ response.skippedReasons = (tallyAll hub.outcome offered).skippedReasons
        ∧ response.refused = (tallyAll hub.outcome offered).refused
        ∧ response.indeterminate = (tallyAll hub.outcome offered).indeterminate := by
  unfold syncPost at h
  split at h
  · cases h
  rename_i entries found
  split at h
  · cases h
  split at h
  · cases h
  split at h
  · cases h
  split at h
  · cases h
  split at h
  · cases h
  split at h
  · cases h
  rename_i offered collected
  split at h
  · cases h
  · cases h
    exact ⟨entries, offered, found, collected, rfl, rfl, rfl, rfl, rfl⟩

/-- A success accounts for its batch: the offered keys are distinct and each is merged,
refused or indeterminate exactly once, the skips are the refusals and the sum of the reason
counts, and the sender's validation reads the answer back in full.
-/
theorem sync_answer_accounts_and_is_accepted (hub : Hub) (request : SyncRequest)
    (response : SyncResponse) (answered : syncPost hub request = .synced response)
    : ∃ entries offered,
        request.records = some entries
        ∧ collectOffered [] entries.items = .ok offered
        ∧ (offered.map SyncRecord.key).Nodup
        ∧ (mergedKeys hub.outcome offered
            ++ (response.refused.map Prod.fst ++ response.indeterminate)).Perm
            (offered.map SyncRecord.key)
        ∧ response.merged = (mergedKeys hub.outcome offered).length
        ∧ response.skipped = response.refused.length
        ∧ (response.skippedReasons.map Prod.snd).sum = response.skipped
        ∧ ∀ validatePresence,
            readBatchResponse (offered.map SyncRecord.key) validatePresence response.toJson
            = some {
                merged := response.merged
                skipped := response.skipped
                refused := response.refused.map refusedEntry
                indeterminate := response.indeterminate
              } := by
  obtain ⟨entries, offered, found, collected, merged, skipped, reasons, refused,
    indeterminate⟩ := syncPost_synced answered
  have account := tallyAll_accounts hub.outcome offered
  obtain ⟨distinct, _, length⟩ := collectOffered_nodup collected
  have small : (offered.map SyncRecord.key).length < 2 ^ 32 := by
    rw [List.length_map, length]
    exact entries.bounded
  have count : response.merged = (mergedKeys hub.outcome offered).length :=
    merged.trans account.merged
  have skips : response.skipped = response.refused.length := by
    rw [skipped, refused, account.skipped]
  have partition : (mergedKeys hub.outcome offered
      ++ (response.refused.map Prod.fst ++ response.indeterminate)).Perm
      (offered.map SyncRecord.key) := by
    rw [refused, indeterminate]
    exact account.partition
  have sum : (response.skippedReasons.map Prod.snd).sum = response.skipped := by
    rw [reasons, skips, refused, account.reasons]
  exact ⟨entries, offered, found, collected, distinct, partition, count, skips, sum,
    fun validatePresence =>
      readBatchResponse_accounts validatePresence small distinct count skips partition⟩

def failingHub : Hub where
  peer := some (Record.ofFields [("id", .str "spoke"), ("status", .str "paired")])
  verifyRefusal := none
  turn _ := { receipt := spokeReceipt, localRow := none, course := .readThrew }
  peerPutFails := false
  syncLogFails := false
  durationMs := 5

def oneMemory : SyncRequest where
  instanceId := "spoke"
  records := some {
    items := [.obj [("data", .obj [("id", .str "m")]), ("id", .str "m"), ("table", .str "Memory")]]
    bounded := by decide
  }
  signature := "signed"

def oneRefusal : SyncResponse where
  merged := 0
  skipped := 1
  skippedReasons := [(.mergeError, 1)]
  refused := [({ table := "Memory", id := "m" }, .mergeError)]
  indeterminate := []
  total := 1
  durationMs := 5
  syncLogWritten := true

theorem oneRefusal_accounts_and_is_accepted
    : ∃ entries offered,
        oneMemory.records = some entries
        ∧ collectOffered [] entries.items = .ok offered
        ∧ (offered.map SyncRecord.key).Nodup
        ∧ (mergedKeys failingHub.outcome offered
            ++ (oneRefusal.refused.map Prod.fst ++ oneRefusal.indeterminate)).Perm
            (offered.map SyncRecord.key)
        ∧ oneRefusal.merged = (mergedKeys failingHub.outcome offered).length
        ∧ oneRefusal.skipped = oneRefusal.refused.length
        ∧ (oneRefusal.skippedReasons.map Prod.snd).sum = oneRefusal.skipped
        ∧ ∀ validatePresence,
            readBatchResponse (offered.map SyncRecord.key) validatePresence oneRefusal.toJson
            = some {
                merged := oneRefusal.merged
                skipped := oneRefusal.skipped
                refused := oneRefusal.refused.map refusedEntry
                indeterminate := oneRefusal.indeterminate
              } :=
  sync_answer_accounts_and_is_accepted failingHub oneMemory oneRefusal (by rfl)

end Flair.Federation
