import Flair.Foundations.Systems
import Flair.Purges.PurgeTargets

/-! A memory purge beside other writers of the same tables, over a store that may drop any
staged write at commit: the locked target set, the delete transaction, and the cleanup of
history records and pointer rows. Follows `resources/MemoryPurge.ts` and
`resources/memory-deletion-history.ts`.
-/

namespace Flair.Purges

open Dynamic Transition

-- Tables

structure DeletionRecord where
  memoryId : String
  memoryInstanceToken : Value
  durability : Value
  actor : Option String
  sourceClass : String
  at_ : String
deriving DecidableEq

/-- The committed tables: Memory, MemoryDeletionHistory by record id, and the memory ids that
have a pointer row.
-/
structure PurgeTables where
  memory : MemoryTable
  history : InsertionMap String DeletionRecord
  pointers : List String

def keepsHistory (row : Record) : Bool :=
  row.get "durability" = some (.str "permanent") || row.get "durability" = some (.str "persistent")

/-- `recordMemoryDeletion`, as the purge calls it. -/
def recordMemoryDeletion (id : String) (stored : Record) (now : String) : Option DeletionRecord :=
  if keepsHistory stored then
    some {
      memoryId := id
      memoryInstanceToken := (stored.get "instanceToken").getD .null
      durability := (stored.get "durability").getD .null
      actor := none
      sourceClass := "admin"
      at_ := now }
  else none

namespace PurgeTables

variable (tables : PurgeTables)

def deleteRows (targets : List String) (writes : List (String × DeletionRecord))
    (dropped droppedHistory : List String) : PurgeTables :=
  { tables with
    memory := (targets.filter (· ∉ dropped)).foldl InsertionMap.delete tables.memory
    history := (writes.filter fun write => write.2.memoryId ∉ droppedHistory).foldl
      (fun history write => history.set write.1 write.2) tables.history }

def deleteHistory (ids dropped : List String) : PurgeTables :=
  { tables with
    history := (ids.filter (· ∉ dropped)).foldl InsertionMap.delete tables.history }

def deletePointers (ids dropped : List String) : PurgeTables :=
  { tables with
    pointers := tables.pointers.filter fun id =>
      id ∉ ids || (tables.memory.get id).isSome || id ∈ dropped }

/-- Other writers that take the locks leave the rows and pointers of the locked ids, and no
one else has this call's record ids.
-/
def agrees (held : List String) (own : InsertionMap String String) (other : PurgeTables) : Bool :=
  held.all (fun id => other.memory.get id = tables.memory.get id
      && (other.pointers.contains id == tables.pointers.contains id))
    && own.all fun entry => other.history.get entry.2 = tables.history.get entry.2

end PurgeTables

-- The call

def PURGE_SET_ATTEMPTS : Nat := 3

inductive PurgeAnswer where
  | idsInvalid
  | tableUnavailable
  | targetMissing (ids : List String)
  | memoryBusy
  | writeOutcomeUnknown
  | lockUnavailable
  | targetsChanged (ids : List String)
  | historyCleanupUnconfirmed (ids historyIds stillStoredIds removedIds : List String)
  | pointerCleanupFailed (ids stillStoredIds removedIds : List String)
  | unconfirmed (ids removedIds : List String)
  | removed (removed : Nat) (removedIds : List String)

/-- What a call that holds the locks and has committed its deletes has found since. -/
structure PurgeRun where
  targets : List String
  removedIds : List String
  stillStored : List String
  historyLeft : List String
  pointerError : Bool
  pointerConfirmationError : Bool
  pointerLeft : List String

/-- Where the call stands before its next awaited step. A call that is replying still holds
its locks.
-/
inductive PurgeStage where
  | idle
  | resolving (ids : List String) (now : Resolving)
  | locking (ids : List String) (attempt : Nat) (targets : List String)
  | rechecking (ids : List String) (attempt : Nat) (lockedIds : List String) (now : Resolving)
  | deleting (targets : List String)
  | confirming (targets : List String)
  | clearingHistory (run : PurgeRun)
  | confirmingHistory (run : PurgeRun)
  | deletingPointers (run : PurgeRun)
  | readingPointers (run : PurgeRun)
  | recheckingPointers (run : PurgeRun) (pointers : List String)
  | replying (answer : PurgeAnswer)
  | answered (answer : PurgeAnswer)
  | threw

/-- The call beside the tables. The code keeps no note of the rows its delete transaction
read, the targets whose history write was dropped, the ids of the locked resolution and its
reads, or that the transaction was committed.
-/
structure PurgeState where
  tables : PurgeTables
  held : List String
  historyIds : InsertionMap String String
  stage : PurgeStage
  stored : MemoryTable
  droppedHistory : List String
  named : List String
  reads : List LineageRead
  committed : Bool

inductive LockOutcome where
  | ran
  | busy
  | unknown
  | unavailable

/-- A commit may drop any of the deletes and writes staged in it, and may throw. -/
inductive PurgeLabel where
  | others (tables : PurgeTables)
  | begin_ (ids : Option Value) (available : Bool)
  | resolve
  | lock (outcome : LockOutcome)
  | deleteRows (uuids : List String) (now : String) (dropped droppedHistory : List String)
      (throws : Bool)
  | confirm
  | clearHistory (dropped : List String) (throws : Bool)
  | confirmHistory (throws : Bool)
  | deletePointers (dropped : List String) (throws : Bool)
  | readPointers (throws : Bool)
  | recheckPointers (throws : Bool)
  | release
  | throw_

def requestedIds : Option Value → Option (List String)
  | some (.arr items) =>
    let ids := items.filterMap fun item => (asString (some item)).filter (· ≠ "")
    if items ≠ [] ∧ ids.length = items.length then some ids else none
  | _ => none

def sortIds (ids : List String) : List String := ids.mergeSort fun left right => decide (left ≤ right)

namespace PurgeState

variable (state : PurgeState)

def goto (stage : PurgeStage) : PurgeState := { state with stage }

def reply (answer : PurgeAnswer) : PurgeState := state.goto (.replying answer)

def throw_ : PurgeState := { state with stage := .threw, held := [] }

def staleHistory (stillStored : List String) : List String :=
  stillStored.filterMap state.historyIds.get

def resolved (ids : List String) (now : Resolving) : PurgeState :=
  if now.missing ≠ [] then state.reply (.targetMissing now.missing)
  else state.goto (.locking ids 1 now.targets)

def rechecked (ids : List String) (attempt : Nat) (lockedIds : List String) (now : Resolving)
    : PurgeState :=
  if now.missing ≠ [] then state.reply (.targetMissing now.missing)
  else if sortIds now.targets = lockedIds then
    { state with stage := .deleting now.targets, named := ids, reads := now.reads }
  else if attempt < PURGE_SET_ATTEMPTS then
    { state with stage := .locking ids (attempt + 1) now.targets, held := [] }
  else { state with stage := .replying (.targetsChanged (sortIds now.targets)), held := [] }

def historyWrites (tables : PurgeTables) (targets uuids : List String) (now : String)
    : List (String × DeletionRecord) :=
  (targets.zip uuids).filterMap fun (id, uuid) =>
    (tables.memory.get id).bind fun stored =>
      (recordMemoryDeletion id stored now).map fun record => (uuid, record)

def deleteRows (targets uuids : List String) (now : String) (dropped droppedHistory : List String)
    : PurgeState :=
  let writes := historyWrites state.tables targets uuids now
  { state with
    tables := state.tables.deleteRows targets writes dropped droppedHistory
    historyIds := writes.map fun write => (write.2.memoryId, write.1)
    stored := targets.filterMap fun id => (state.tables.memory.get id).map (id, ·)
    droppedHistory
    committed := true }

/-- The reads after the delete transaction's commit. -/
def confirm (targets : List String) : PurgeRun where
  targets
  removedIds := targets.filter fun id => (state.tables.memory.get id).isNone
  stillStored := targets.filter fun id => (state.tables.memory.get id).isSome
  historyLeft := []
  pointerError := false
  pointerConfirmationError := false
  pointerLeft := []

def afterHistory (run : PurgeRun) : PurgeStage :=
  if run.removedIds = [] then .readingPointers run else .deletingPointers run

def answerOf (run : PurgeRun) : PurgeAnswer :=
  if run.historyLeft ≠ [] then
    let left := run.stillStored.filter fun id =>
      (state.historyIds.get id).any (· ∈ run.historyLeft)
    .historyCleanupUnconfirmed left (left.filterMap state.historyIds.get) run.stillStored
      run.removedIds
  else if run.pointerError || run.pointerConfirmationError || run.pointerLeft ≠ [] then
    .pointerCleanupFailed run.pointerLeft run.stillStored run.removedIds
  else if run.stillStored ≠ [] then .unconfirmed run.stillStored run.removedIds
  else .removed run.removedIds.length run.removedIds

def finish (run : PurgeRun) : PurgeState := state.reply (state.answerOf run)

end PurgeState

open PurgeState in
def purgeStep (state : PurgeState) : PurgeLabel → Option PurgeState
  | .others tables =>
    if state.tables.agrees state.held state.historyIds tables then some { state with tables }
    else none
  | .begin_ requested available =>
    match state.stage with
    | .idle =>
      match requestedIds requested with
      | none => some (state.reply .idsInvalid)
      | some ids =>
        if available then some (state.goto (.resolving ids (startResolving ids)))
        else some (state.reply .tableUnavailable)
    | _ => none
  | .resolve =>
    match state.stage with
    | .resolving ids now =>
      match resolveNext state.tables.memory now with
      | some next => some (state.goto (.resolving ids next))
      | none => some (state.resolved ids now)
    | .rechecking ids attempt lockedIds now =>
      match resolveNext state.tables.memory now with
      | some next => some (state.goto (.rechecking ids attempt lockedIds next))
      | none => some (state.rechecked ids attempt lockedIds now)
    | _ => none
  | .lock outcome =>
    match state.stage with
    | .locking ids attempt targets =>
      match outcome with
      | .ran =>
        some { state with
          stage := .rechecking ids attempt (sortIds targets) (startResolving ids)
          held := sortIds targets }
      | .busy => some (state.reply .memoryBusy)
      | .unknown => some (state.reply .writeOutcomeUnknown)
      | .unavailable => some (state.reply .lockUnavailable)
    | _ => none
  | .deleteRows uuids now dropped droppedHistory throws =>
    match state.stage with
    | .deleting targets =>
      match targets.find? fun id => (state.tables.memory.get id).isNone with
      | some missing => some (state.reply (.targetMissing [missing]))
      | none =>
        if uuids.length = targets.length ∧ uuids.Nodup
            ∧ ∀ uuid ∈ uuids, state.tables.history.get uuid = none then
          let next := state.deleteRows targets uuids now dropped droppedHistory
          some (if throws then next.throw_ else next.goto (.confirming targets))
        else none
    | _ => none
  | .confirm =>
    match state.stage with
    | .confirming targets =>
      let run := state.confirm targets
      if state.staleHistory run.stillStored = [] then
        some (state.goto (afterHistory run))
      else some (state.goto (.clearingHistory run))
    | _ => none
  | .clearHistory dropped throws =>
    match state.stage with
    | .clearingHistory run =>
      let stale := state.staleHistory run.stillStored
      let next := { state with tables := state.tables.deleteHistory stale dropped }
      if throws then some (next.goto (afterHistory { run with historyLeft := stale }))
      else some (next.goto (.confirmingHistory run))
    | _ => none
  | .confirmHistory throws =>
    match state.stage with
    | .confirmingHistory run =>
      let stale := state.staleHistory run.stillStored
      let historyLeft :=
        if throws then stale
        else stale.filter fun id => (state.tables.history.get id).isSome
      some (state.goto (afterHistory { run with historyLeft }))
    | _ => none
  | .deletePointers dropped throws =>
    match state.stage with
    | .deletingPointers run =>
      some ({ state with
        tables := state.tables.deletePointers run.removedIds dropped }.goto
          (.readingPointers { run with pointerError := throws }))
    | _ => none
  | .readPointers throws =>
    match state.stage with
    | .readingPointers run =>
      let pointers := run.removedIds.filter (· ∈ state.tables.pointers)
      if throws then some (state.finish { run with pointerConfirmationError := true })
      else if pointers = [] then some (state.finish run)
      else some (state.goto (.recheckingPointers run pointers))
    | _ => none
  | .recheckPointers throws =>
    match state.stage with
    | .recheckingPointers run pointers =>
      if throws then some (state.finish { run with pointerConfirmationError := true })
      else
        some (state.finish { run with
          pointerLeft := run.removedIds.filter fun id =>
            id ∈ pointers ∧ (state.tables.memory.get id).isNone })
    | _ => none
  | .release =>
    match state.stage with
    | .replying answer => some { state with stage := .answered answer, held := [] }
    | _ => none
  | .throw_ =>
    match state.stage with
    | .resolving _ _ | .locking _ _ _ | .rechecking _ _ _ _ | .deleting _ | .confirming _ =>
      some state.throw_
    | _ => none

def purge : System PurgeState PurgeLabel where
  initial state :=
    state.stage = .idle ∧ state.held = [] ∧ state.historyIds = [] ∧ state.stored = []
      ∧ state.droppedHistory = [] ∧ state.reads = [] ∧ state.committed = false
  step := purgeStep

end Flair.Purges
