import Mathlib.Data.Rat.Floor
import Flair.Federation.BatchSends
import Flair.Foundations.InsertionMap
import Flair.Foundations.IsoReading
import Flair.Foundations.Systems
import Flair.Foundations.Text

/-! The Presence pass of a federation sync: the home rows past the stored watermark are sent
to the hub in batches, and the watermark moves on as far as the answers allow. Follows
`src/federation/presence-send.ts` and the pass in `runFederationSyncOnce`, as a system in
which rows may be written at any time between the steps of a run.
-/

namespace Flair.Federation

open Dynamic Transition

-- Selection

/-- What the pass depends on: this instance's id, the engine's `Number` of a text, where
`none` is not finite, its `Date.parse` of a text in no ISO format, where `none` is `NaN`, the
signature of a record under the instance's key and the length of its JSON text.
-/
structure PresenceSite where
  instanceId : String
  number : String → Option Rat
  otherDate : String → Option Int
  sign : SyncRecord → String
  size : SyncRecord → Nat

/-- `PRESENCE_SEND_FUTURE_ALLOWANCE_MS`. -/
def presenceSendFutureAllowance : Rat := 5 * 60 * 1000

/-- `PRESENCE_SEND_OVERLAP_MS`. -/
def presenceSendOverlap : Int := 30 * 1000

/-- `PRESENCE_SEND_RETRYABLE_SKIP_REASONS`. -/
def presenceSendRetryableReasons : List String := [
  "future_timestamp",
  "unknown_originator_key",
  "merge_target_changed",
  "merge_target_busy",
  "merge_error",
  "presence_agent_not_replicated"
]

/-- `PRESENCE_SEND_RECEIVE_DISABLED_SKIP_REASON`. -/
def presenceReceiveDisabledReason : String := "presence_receive_disabled"

/-- The whole milliseconds of a time value, rounded towards zero. -/
def truncate (amount : Rat) : Int := if 0 ≤ amount then amount.floor else -(-amount).floor

namespace PresenceSite

variable (site : PresenceSite)

/-- `Date.parse`. -/
def dateParse (text : String) : Option Int :=
  match IsoTime.parseIso text with
  | some millis => some millis
  | none => site.otherDate text

def toMs : Option Value → Option Rat
  | some (.num amount) => some amount
  | some (.str text) => if trim text = "" then none else site.number text
  | _ => none

/-- `presenceCursorMs`: the later of the two stamps, when it is a valid date. -/
def presenceCursorMs (row : Record) : Option Rat :=
  let heartbeat := site.toMs (row.get "lastHeartbeatAt")
  let activity := site.toMs (row.get "activityUpdatedAt")
  let cursor :=
    match heartbeat, activity with
    | none, activity => activity
    | some heartbeat, none => some heartbeat
    | some heartbeat, some activity => some (max heartbeat activity)
  cursor.filter fun cursor =>
    decide (-IsoTime.maxMillis ≤ cursor ∧ cursor ≤ IsoTime.maxMillis)

def presenceWatermarkMs : Option Value → Int
  | some (.str text) => if trim text = "" then 0 else (site.dateParse text).getD 0
  | _ => 0

def isHome (row : Record) : Bool :=
  decide (row.get "originatorInstanceId" = some (.str site.instanceId))

def selectPresenceRowsToSend (rows : List Record) (watermarkMs : Int) : List Record :=
  rows.filter fun row =>
    site.isHome row && (site.presenceCursorMs row).any fun cursor =>
      decide ((watermarkMs : Rat) < cursor)

def wireStamp (data : Record) (field : String) : Option Record :=
  if field ≠ "lastHeartbeatAt" ∧ isNullish (data.get field) then some data
  else (site.toMs (data.get field)).map fun stamp => data.set field (.num stamp)

def presenceWireRecord (row : Record) : Option SyncRecord :=
  match (asString (row.get "agentId")).filter (fun id => id ≠ ""), site.presenceCursorMs row with
  | some agentId, some cursor =>
    let data := (row.set "id" (.str agentId)).set "agentId" (.str agentId)
    (["lastHeartbeatAt", "activityUpdatedAt", "receivedAt"].foldlM site.wireStamp data).map
      fun data => {
        table := "Presence"
        id := agentId
        data
        updatedAt := IsoTime.toISOString (truncate cursor)
        originatorInstanceId := some site.instanceId
        signature := none
        principalId := none
        v := some 2 }
  | _, _ => none

/-- What the loop over the selected rows offers of one: its cursor and the signed record. A
row dated past the allowance is left out, and one with no wire record.
-/
def offer (scanAt : Int) (row : Record) : Option (Rat × SyncRecord) :=
  match site.presenceCursorMs row, site.presenceWireRecord row with
  | some cursor, some payload =>
    if scanAt + presenceSendFutureAllowance < cursor then none
    else some (cursor, { payload with signature := some (site.sign payload) })
  | _, _ => none

end PresenceSite

-- Batches

def budgetRecords : Nat := 50

def budgetBytes : Nat := 2000000

/-- The pass between two rows. No cap is an infinite one. `answered` is a history of the
batches with their results.
-/
structure PresencePass where
  send : SendState
  batch : List SyncRecord
  batchBytes : Nat
  advance : Rat
  cap : Option Int
  merged : Nat
  skipped : Nat
  batches : Nat
  answered : List (List SyncRecord × BatchResult)

def presenceReoffered (reason : String) : Bool :=
  decide (reason ∈ presenceSendRetryableReasons) || decide (reason = presenceReceiveDisabledReason)

/-- `Math.min(presenceCapMs, cursor - 1)` -/
def capBelow (cap : Option Int) (cursor : Int) : Option Int :=
  match cap with
  | none => some (cursor - 1)
  | some held => some (min held (cursor - 1))

/-- `Math.min(advanceMs, presenceCapMs)` -/
def PresencePass.candidate (pass : PresencePass) : Rat :=
  match pass.cap with
  | none => pass.advance
  | some cap => min pass.advance cap

namespace PresenceSite

variable (site : PresenceSite)

def capAt (batch : List SyncRecord) (cap : Option Int) (key : RecordKey) : Option Int :=
  if key.table ≠ "Presence" then cap
  else
    match batch.find? (fun record => record.id = key.id) with
    | none => cap
    | some sent =>
      match sent.updatedAt.bind site.dateParse with
      | none => cap
      | some cursor => capBelow cap cursor

def capRefused (batch : List SyncRecord) (cap : Option Int) (refusal : RefusedEntry)
    : Option Int :=
  if presenceReoffered refusal.reason then site.capAt batch cap refusal.key else cap

/-- `flushPresence`, with the error of a batch that is not answered. -/
def flushPresence (link : HubLink) (pass : PresencePass) : PresencePass × Option String :=
  match sendBatch link true pass.batch pass.send with
  | (send, .error message) => ({ pass with send }, some message)
  | (send, .ok result) =>
    ({
      send
      batch := []
      batchBytes := 0
      advance := pass.advance
      cap :=
        result.indeterminate.foldl (site.capAt pass.batch)
          (result.refused.foldl (site.capRefused pass.batch) pass.cap)
      merged := pass.merged + result.merged
      skipped := pass.skipped + result.skipped
      batches := pass.batches + 1
      answered := pass.answered ++ [(pass.batch, result)]
    }, none)

def full (pass : PresencePass) (record : SyncRecord) : Bool :=
  decide (budgetRecords ≤ pass.batch.length)
  || (!pass.batch.isEmpty && decide (budgetBytes < pass.batchBytes + site.size record))

def push (scanAt : Int) (pass : PresencePass) (cursor : Rat) (record : SyncRecord)
    : PresencePass :=
  { pass with
    batch := pass.batch ++ [record]
    batchBytes := pass.batchBytes + site.size record
    advance := max pass.advance (min cursor scanAt) }

def sendRows (link : HubLink) (scanAt : Int)
    : List Record → PresencePass → PresencePass × Option String
  | [], pass => if pass.batch.isEmpty then (pass, none) else site.flushPresence link pass
  | row :: rest, pass =>
    match site.offer scanAt row with
    | none => sendRows link scanAt rest pass
    | some (cursor, record) =>
      match (if site.full pass record then site.flushPresence link pass else (pass, none)) with
      | (pass, some message) => (pass, some message)
      | (pass, none) => sendRows link scanAt rest (site.push scanAt pass cursor record)

/-- `Math.min(watermarkMs, presenceScanAtMs)` -/
def effectiveWatermark (scanAt : Int) (stored : Option Value) : Int :=
  min (site.presenceWatermarkMs stored) scanAt

/-- `scanFloorMs` -/
def scanFloor (scanAt : Int) (stored : Option Value) : Int :=
  max 0 (site.effectiveWatermark scanAt stored - presenceSendOverlap)

/-- What a pass comes to: the error that fails the run, or the watermark to store, if any. -/
abbrev PresenceResult := Except String (Option Rat)

def sendPresence (link : HubLink) (scanAt : Int) (stored : Option Value) (rows : List Record)
    (start : PresencePass)
    : PresencePass × PresenceResult :=
  let effective := site.effectiveWatermark scanAt stored
  let toSend := site.selectPresenceRowsToSend rows (site.scanFloor scanAt stored)
  if toSend.isEmpty then
    (start, .ok (if effective < site.presenceWatermarkMs stored then some effective else none))
  else
    match link.loadKey start.send with
    | .error message => (start, .error message)
    | .ok send =>
      match site.sendRows link scanAt toSend { start with send, advance := effective } with
      | (pass, some message) => (pass, .error message)
      | (pass, none) => (pass, .ok (some pass.candidate))

end PresenceSite

-- Runs

/-- What the hub has made of a row's version so far: nothing, an answer after which it is
offered again, or a final one.
-/
inductive Standing where
  | unanswered
  | open
  | settled
deriving DecidableEq

structure StoredPresence where
  row : Record
  version : Nat
  standing : Standing
deriving DecidableEq

structure Scan where
  scanAt : Int
  rows : InsertionMap Value StoredPresence

/-- Where a run is: not started, after its scan, or after its sends with a watermark. -/
inductive SendStage where
  | idle
  | scanned (scan : Scan)
  | sent (scan : Scan) (pass : PresencePass) (advance : Rat)

/-- The table of Presence rows by `agentId`, the versions written so far, the hub's
`presenceLastSyncAt`, and the run.
-/
structure SenderState where
  table : InsertionMap Value StoredPresence
  versions : Nat
  watermark : Option Value
  stage : SendStage

/-- `commit` writes a row. A scan returns the rows in any order, and the hub answers the sends
in any way. `start` is what the generic tables leave. A run with no batch at all stores its
watermark only when the hub answers a ping; the update may fail.
-/
inductive SenderLabel where
  | commit (key : Value) (row : Record)
  | delete (key : Value)
  | scan (scanAt : Int) (rows : InsertionMap Value StoredPresence)
  | send (link : HubLink) (start : SendState) (batches : Nat)
  | store (pinged landed : Bool)

def PresencePass.start (send : SendState) (batches : Nat) : PresencePass where
  send
  batch := []
  batchBytes := 0
  advance := 0
  cap := none
  merged := 0
  skipped := 0
  batches
  answered := []

def BatchResult.leavesOpen (result : BatchResult) (key : RecordKey) : Bool :=
  (result.refused.any fun refusal =>
    decide (refusal.key = key) && presenceReoffered refusal.reason)
  || decide (key ∈ result.indeterminate)

def standingIn (batch : List SyncRecord) (result : BatchResult) (id : String)
    : Option Standing :=
  if batch.any fun record => decide (record.id = id) then
    some (if result.leavesOpen { table := "Presence", id } then .open else .settled)
  else none

def standingAfter (scan : Scan) (answered : List (List SyncRecord × BatchResult))
    (key : Value) (stored : StoredPresence)
    : Standing :=
  match scan.rows.get key, asString (some key) with
  | some scanned, some id =>
    if scanned.version = stored.version then
      (answered.findSome? fun entry => standingIn entry.1 entry.2 id).getD stored.standing
    else stored.standing
  | _, _ => stored.standing

namespace SenderState

def record (state : SenderState) (scan : Scan)
    (answered : List (List SyncRecord × BatchResult))
    : SenderState :=
  { state with
    table := state.table.map fun entry =>
      (entry.1, { entry.2 with standing := standingAfter scan answered entry.1 entry.2 }) }

def goto (state : SenderState) (stage : SendStage) : SenderState := { state with stage }

end SenderState

/-- One step; `none` where the label does not apply. -/
def senderStep (site : PresenceSite) (state : SenderState)
    : SenderLabel → Option SenderState
  | .commit key row =>
    if row.get "agentId" = some key then
      some { state with
        table := state.table.set key { row, version := state.versions, standing := .unanswered }
        versions := state.versions + 1 }
    else none
  | .delete key => some { state with table := state.table.delete key }
  | .scan scanAt rows =>
    match state.stage with
    | .idle =>
      if rows.Perm state.table then some (state.goto (.scanned { scanAt, rows })) else none
    | _ => none
  | .send link start batches =>
    match state.stage with
    | .scanned scan =>
      let rows := scan.rows.map fun entry => entry.2.row
      let (pass, result) :=
        site.sendPresence link scan.scanAt state.watermark rows (.start start batches)
      let answered := state.record scan pass.answered
      some (answered.goto (
        match result with
        | .ok (some advance) => .sent scan pass advance
        | _ => .idle))
    | _ => none
  | .store pinged landed =>
    match state.stage with
    | .sent _ pass advance =>
      let stores := landed && (pinged || decide (pass.batches ≠ 0))
      some (
        match IsoTime.toISOString (truncate advance) with
        | some text =>
          { state with
            watermark := if stores then some (.str text) else state.watermark
            stage := .idle }
        | none => state.goto .idle)
    | _ => none

/-- No run has started: any rows, each under its `agentId`, that no version numbers past the
next one, and any stored watermark.
-/
structure SenderState.Fresh (state : SenderState) : Prop where
  idle : state.stage = .idle
  distinct : state.table.Distinct
  keyed : ∀ entry ∈ state.table, entry.2.row.get "agentId" = some entry.1
  numbered : ∀ entry ∈ state.table, entry.2.version < state.versions

def presenceSends (site : PresenceSite) : System SenderState SenderLabel where
  initial := SenderState.Fresh
  step := senderStep site

end Flair.Federation
