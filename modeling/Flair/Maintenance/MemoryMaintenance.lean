import Flair.Federation.Merge
import Flair.Lexical.Bm25Filter

/-! A maintenance run over the Memory rows: the expiry and archive passes and the sweep of
orphaned pointers, beside any other writers. Follows `resources/MemoryMaintenance.ts`.
-/

namespace Flair.Maintenance

open Dynamic Transition
open Flair.Lexical (Engine)

-- The request

/-- What a request's `agentId` says about the target. -/
inductive RequestedAgent where
  | absent
  | named (agentId : String)
  | invalid
deriving DecidableEq

/-- The body's fields; `agentIdOwn` is whether the body has the field. -/
structure MaintenanceBody where
  agentIdOwn : Bool
  agentId : Option Value
  dryRun : Option Value

/-- `parseAgentIdValue`; `none` names no target. -/
def parseAgentIdValue : Option Value → Option String
  | some (.str text) => if trim text = "" ∨ text ≠ trim text then none else some text
  | _ => none

def parseRequestedAgent (body : MaintenanceBody) : RequestedAgent :=
  if body.agentIdOwn = false ∧ body.agentId = none then .absent
  else
    match parseAgentIdValue body.agentId with
    | none => .invalid
    | some agentId => if Federation.isValidAgentId agentId then .named agentId else .invalid

structure MaintenanceRequest where
  actorId : Option String
  callerIsAdmin : Bool
  body : MaintenanceBody
  now : Int

structure MaintenanceRefusal where
  status : Nat
  error : String
  remedy : Option String := none
deriving DecidableEq

def agentIdRule : String := "^[a-zA-Z0-9_-]{1,64}$"

def invalidAgentIdRemedy : String :=
  "for a legacy stored agent id outside this rule, run that agent's own authenticated non-admin "
    ++ "maintenance (POST /MemoryMaintenance with that agent's credential), which reaches its rows, when the "
    ++ "stored id can authenticate: the signed TPS-Ed25519 header cannot carry a colon or whitespace. For an "
    ++ "id the header cannot represent, omit agentId to run fleet-wide, which reaches that agent's rows and "
    ++ "also expires and archives other agents' eligible rows. A run scoped to an admin agentId needs an id "
    ++ "that matches the rule."

namespace MaintenanceRequest

def dryRun (request : MaintenanceRequest) : Bool := truthy request.body.dryRun

def targetAgent (request : MaintenanceRequest) : Option String :=
  if request.callerIsAdmin then
    match parseRequestedAgent request.body with
    | .named agentId => some agentId
    | _ => none
  else request.actorId

def refusal (request : MaintenanceRequest) : Option MaintenanceRefusal :=
  if request.callerIsAdmin = true ∧ parseRequestedAgent request.body = .invalid then
    some {
      status := 400
      error := "agentId must be a string matching " ++ agentIdRule
      remedy := invalidAgentIdRemedy }
  else if request.targetAgent.getD "" = "" ∧ request.callerIsAdmin = false then
    some { status := 400, error := "agentId required" }
  else none

def inScope (request : MaintenanceRequest) (record : Record) : Bool :=
  request.targetAgent.all fun agentId =>
    strictEquals (record.get "agentId") (some (.str agentId))

def pointerInScope (request : MaintenanceRequest) (pointer : Record) : Bool :=
  request.targetAgent.all fun agentId =>
    parseAgentIdValue (pointer.get "authorId") = some agentId

end MaintenanceRequest

-- Eligible rows

/-- A bound that is there and earlier than the clock; a comparison with `NaN` is false. -/
def before (engine : Engine) (bound : Option Value) (now : Int) : Bool :=
  truthy bound && (engine.dateTime bound).any fun instant => decide (instant < now)

/-- An ephemeral row whose `expiresAt` has passed. -/
def expiredEphemeral (engine : Engine) (now : Int) (record : Record) : Bool :=
  strictEquals (record.get "durability") (some (.str "ephemeral"))
    && before engine (record.get "expiresAt") now

def thirtyDays : Int := 30 * 24 * 3600000

def oldSession (engine : Engine) (now : Int) (record : Record) : Bool :=
  strictEquals (record.get "durability") (some (.str "standard"))
    && strictEquals (record.get "type") (some (.str "session"))
    && truthy (record.get "createdAt")
    && (engine.dateTime (record.get "createdAt")).any fun created =>
      decide (thirtyDays < now - created)

def archivable (engine : Engine) (now : Int) (record : Record) : Bool :=
  !truthy (record.get "archived")
    && (before engine (record.get "validTo") now || oldSession engine now record)

inductive Pass where
  | expiry
  | archive
deriving DecidableEq

def passOf (engine : Engine) (now : Int) (record : Record) : Option Pass :=
  if expiredEphemeral engine now record then some .expiry
  else if archivable engine now record then some .archive
  else none

def archivePatch (now : Int) : Record :=
  .ofFields [("archived", .bool true), ("archivedAt", .str ((IsoTime.toISOString now).getD ""))]

-- The tables and the run

abbrev RowKey := Option Value

structure Tables where
  memories : RowKey → Option Record
  pointers : RowKey → Option Record

structure Stats where
  expired : Nat := 0
  archived : Nat := 0
  total : Nat := 0
  errors : Nat := 0
  orphans : Nat := 0
  skipped : Nat := 0
deriving DecidableEq

/-- The reads before a pointer is deleted, in their order. -/
inductive OrphanCheck where
  | memory
  | pointer
  | memoryConfirmed
  | pointerConfirmed
deriving DecidableEq

def OrphanCheck.next : OrphanCheck → Option OrphanCheck
  | .memory => some .pointer
  | .pointer => some .memoryConfirmed
  | .memoryConfirmed => some .pointerConfirmed
  | .pointerConfirmed => none

inductive MaintenanceResponse where
  | refused (refusal : MaintenanceRefusal)
  | failed (message : String) (stats : Stats)
  | incomplete (message : String) (stats : Stats)
  | complete (message : String) (stats : Stats)
deriving DecidableEq

/-- Where the run is: a row from its selection to the read after its commit, or a pointer. -/
inductive Stage where
  | started
  | scanning
  | selected (pass : Pass) (record : Record)
  | locked (pass : Pass) (record : Record)
  | reread (pass : Pass) (record : Record)
  | confirmed (pass : Pass) (record : Record)
  | committed (pass : Pass) (record : Record)
  | sweeping
  | pointed (pointer : Record) (memoryId : String)
  | checking (pointer : Record) (memoryId : String) (memory : Option Record)
      (check : OrphanCheck)
  | orphanConfirmed (pointer : Record) (memoryId : String)
  | orphanCommitted (memoryId : String)
  | answered (response : MaintenanceResponse)

/-- What the run did, for what is said about it; nothing reads it. -/
inductive Event where
  | selected (pass : Pass) (record : Record)
  | lockedRead (key : RowKey) (row : Option Record)
  | committed (pass : Pass) (record : Record)
  | shown (pass : Pass) (record : Record)
  | pointed (memoryId : String) (memory : Option Record)
  | unread (memoryId : String)
  | orphanCommitted (memoryId : String)
  | orphanGone (memoryId : String)
deriving DecidableEq

/-- The tables, the run's stage and counts, and its events, the last one first. -/
structure MaintenanceState where
  tables : Tables
  stage : Stage
  stats : Stats
  log : List Event

inductive MaintenanceLabel where
  | others (tables : Tables)
  | begin
  | scan (record : Record)
  | endScan (pointerTable : Bool)
  | lock (taken : Bool)
  | reread
  | confirm
  | commit (landsRow landsPointer : Bool)
  | verify (readable : Bool)
  | nextPointer (pointer : Record)
  | readMemory
  | check
  | commitOrphan (lands : Bool)
  | verifyOrphan (readable : Bool)
  | endSweep
  | throw
  | failSearch (message : String)

namespace MaintenanceState

variable (state : MaintenanceState)

def goto (stage : Stage) : MaintenanceState := { state with stage }

@[simp] def note (event : Event) : MaintenanceState := { state with log := event :: state.log }

def count (change : Stats → Stats) : MaintenanceState :=
  { state with stats := change state.stats }

def skip (stage : Stage) : MaintenanceState :=
  (state.count fun stats => { stats with skipped := stats.skipped + 1 }).goto stage

def failItem (stage : Stage) : MaintenanceState :=
  (state.count fun stats => { stats with errors := stats.errors + 1 }).goto stage

end MaintenanceState

def Pass.count (pass : Pass) (stats : Stats) : Stats :=
  match pass with
  | .expiry => { stats with expired := stats.expired + 1 }
  | .archive => { stats with archived := stats.archived + 1 }

def rowKey (record : Record) : RowKey := record.get "id"

def updateRow (row : Option Record) (patch : Record) : Option Record :=
  some ((row.getD ∅).assign patch)

/-- What a pass's transaction leaves, when the store may drop either write: an expiry deletes
the row and its pointer, an archive updates the row and deletes the pointer.
-/
def commitPass (now : Int) (pass : Pass) (record : Record) (landsRow landsPointer : Bool)
    (tables : Tables)
    : Tables where
  memories :=
    if landsRow then
      Function.update tables.memories (rowKey record)
        (match pass with
          | .expiry => none
          | .archive => updateRow (tables.memories (rowKey record)) (archivePatch now))
    else tables.memories
  pointers :=
    if landsPointer then Function.update tables.pointers (rowKey record) none
    else tables.pointers

/-- The committed row shows the pass's change: it is gone, or still the same row and archived. -/
def passShown (now : Int) (pass : Pass) (record : Record) (committed : Option Record) : Bool :=
  match pass with
  | .expiry => committed.isNone
  | .archive =>
    WriteBack.verifyCommittedFields (some committed) (some record) (archivePatch now) = .shown

def pointerKey (memoryId : String) : RowKey := some (.str memoryId)

def isLive (memory : Option Record) : Bool :=
  memory.any fun row => !strictEquals (row.get "archived") (some (.bool true))

def respond (request : MaintenanceRequest) (stats : Stats) : MaintenanceResponse :=
  if 0 < stats.errors then
    .incomplete (toString stats.errors ++ " cleanup error(s); see counts") stats
  else .complete (if request.dryRun then "Dry run complete" else "Maintenance complete") stats

section Steps

variable (engine : Engine) (request : MaintenanceRequest) (state : MaintenanceState)

def beginStep : Option MaintenanceState :=
  match state.stage with
  | .started =>
    match request.refusal with
    | some refusal => some (state.goto (.answered (.refused refusal)))
    | none => some (state.goto .scanning)
  | _ => none

def scanStep (record : Record) : Option MaintenanceState :=
  match state.stage with
  | .scanning =>
    if request.inScope record then
      let counted := state.count fun stats => { stats with total := stats.total + 1 }
      match passOf engine request.now record with
      | none => some counted
      | some pass =>
        let selected := counted.note (.selected pass record)
        if request.dryRun then some (selected.count pass.count)
        else some (selected.goto (.selected pass record))
    else some state
  | _ => none

def endScanStep (pointerTable : Bool) : Option MaintenanceState :=
  match state.stage with
  | .scanning =>
    if request.dryRun then some (state.goto (.answered (respond request state.stats)))
    else if pointerTable then some (state.goto .sweeping)
    else some (state.goto
      (.answered (.failed "MemoryHostSource table unavailable (orphan sweep)" state.stats)))
  | _ => none

/-- The lock is tried once; a row whose lock is held is skipped. -/
def lockStep (taken : Bool) : Option MaintenanceState :=
  match state.stage with
  | .selected pass record =>
    if taken then some (state.goto (.locked pass record)) else some (state.skip .scanning)
  | _ => none

/-- The read in the transaction: the row is still the one the scan selected. -/
def rereadStep : Option MaintenanceState :=
  match state.stage with
  | .locked pass record =>
    if state.tables.memories (rowKey record) = some record then
      some (state.goto (.reread pass record))
    else some (state.skip .scanning)
  | _ => none

def confirmStep : Option MaintenanceState :=
  match state.stage with
  | .reread pass record =>
    let confirmed := state.tables.memories (rowKey record)
    let read := state.note (.lockedRead (rowKey record) confirmed)
    if confirmed = some record then some (read.goto (.confirmed pass record))
    else some (read.skip .scanning)
  | _ => none

def commitStep (landsRow landsPointer : Bool) : Option MaintenanceState :=
  match state.stage with
  | .confirmed pass record =>
    let tables := commitPass request.now pass record landsRow landsPointer state.tables
    some (({ state with tables }.note (.committed pass record)).goto (.committed pass record))
  | _ => none

def verifyStep (readable : Bool) : Option MaintenanceState :=
  match state.stage with
  | .committed pass record =>
    if readable then
      if passShown request.now pass record (state.tables.memories (rowKey record)) then
        some (((state.note (.shown pass record)).count pass.count).goto .scanning)
      else some (state.skip .scanning)
    else some (state.failItem .scanning)
  | _ => none

def nextPointerStep (pointer : Record) : Option MaintenanceState :=
  match state.stage with
  | .sweeping =>
    if request.pointerInScope pointer then
      match asString (pointer.get "memoryId") with
      | none => some state
      | some memoryId =>
        if memoryId = "" then some state
        else some (state.goto (.pointed pointer memoryId))
    else some state
  | _ => none

def readMemoryStep : Option MaintenanceState :=
  match state.stage with
  | .pointed pointer memoryId =>
    let memory := state.tables.memories (pointerKey memoryId)
    if isLive memory then some (state.goto .sweeping)
    else
      some ((state.note (.pointed memoryId memory)).goto
        (.checking pointer memoryId memory .memory))
  | _ => none

/-- One of the four reads: its row is still the one the sweep selected. -/
def checkStep : Option MaintenanceState :=
  match state.stage with
  | .checking pointer memoryId memory check =>
    let same :=
      match check with
      | .memory | .memoryConfirmed =>
        decide (state.tables.memories (pointerKey memoryId) = memory)
      | .pointer | .pointerConfirmed =>
        decide (state.tables.pointers (pointerKey memoryId) = some pointer)
    if same then
      match check.next with
      | some next => some (state.goto (.checking pointer memoryId memory next))
      | none => some (state.goto (.orphanConfirmed pointer memoryId))
    else some (state.skip .sweeping)
  | _ => none

def commitOrphanStep (lands : Bool) : Option MaintenanceState :=
  match state.stage with
  | .orphanConfirmed _ memoryId =>
    let pointers :=
      if lands then Function.update state.tables.pointers (pointerKey memoryId) none
      else state.tables.pointers
    some (({ state with tables := { state.tables with pointers } }.note
      (.orphanCommitted memoryId)).goto (.orphanCommitted memoryId))
  | _ => none

def verifyOrphanStep (readable : Bool) : Option MaintenanceState :=
  match state.stage with
  | .orphanCommitted memoryId =>
    if readable then
      if state.tables.pointers (pointerKey memoryId) = none then
        some (((state.note (.orphanGone memoryId)).count fun stats =>
          { stats with orphans := stats.orphans + 1 }).goto .sweeping)
      else some (state.skip .sweeping)
    else some (state.failItem .sweeping)
  | _ => none

def endSweepStep : Option MaintenanceState :=
  match state.stage with
  | .sweeping => some (state.goto (.answered (respond request state.stats)))
  | _ => none

/-- An item's operation throws before its commit: its transaction is aborted. -/
def throwStep : Option MaintenanceState :=
  match state.stage with
  | .selected _ _ | .locked _ _ | .reread _ _ | .confirmed _ _ => some (state.failItem .scanning)
  | .pointed _ memoryId => some ((state.note (.unread memoryId)).failItem .sweeping)
  | .checking _ _ _ _ | .orphanConfirmed _ _ => some (state.failItem .sweeping)
  | _ => none

def failSearchStep (message : String) : Option MaintenanceState :=
  match state.stage with
  | .scanning | .sweeping => some (state.goto (.answered (.failed message state.stats)))
  | _ => none

/-- One step of the run, or of the other writers, who do not all take the row's lock. -/
def maintenanceStep : MaintenanceLabel → Option MaintenanceState
  | .others tables => some { state with tables }
  | .begin => beginStep request state
  | .scan record => scanStep engine request state record
  | .endScan pointerTable => endScanStep request state pointerTable
  | .lock taken => lockStep state taken
  | .reread => rereadStep state
  | .confirm => confirmStep state
  | .commit landsRow landsPointer => commitStep request state landsRow landsPointer
  | .verify readable => verifyStep request state readable
  | .nextPointer pointer => nextPointerStep request state pointer
  | .readMemory => readMemoryStep state
  | .check => checkStep state
  | .commitOrphan lands => commitOrphanStep state lands
  | .verifyOrphan readable => verifyOrphanStep state readable
  | .endSweep => endSweepStep request state
  | .throw => throwStep state
  | .failSearch message => failSearchStep state message

end Steps

def memoryMaintenance (engine : Engine) (request : MaintenanceRequest)
    : System MaintenanceState MaintenanceLabel where
  initial state := state.stage = .started ∧ state.stats = {} ∧ state.log = []
  step := maintenanceStep engine request

end Flair.Maintenance
