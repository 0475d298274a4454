import Flair.Foundations.ChangeLog
import Flair.Foundations.Systems
import Flair.Lexical.IndexRecords
import Mathlib.Tactic.Cases

/-! One worker's BM25 index beside the Memory table: the table's commits, its change feed,
the post-commit hooks and the builds, one transition for each awaited step. Follows
`resources/bm25-index-service.ts`; the index is the rows it holds.
-/

namespace Flair.Lexical

open Dynamic Transition ChangeLog

-- The service

abbrev IndexContents := String → Option IndexRecord

namespace IndexContents

def clear : IndexContents := fun _ => none

/-- `index.upsert(record)`; a record with an empty id is ignored. -/
def upsert (index : IndexContents) (record : IndexRecord) : IndexContents :=
  if record.id = "" then index else Function.update index record.id (some record)

def remove (index : IndexContents) (id : String) : IndexContents :=
  Function.update index id none

end IndexContents

inductive PendingEvent where
  | upsert (record : IndexRecord)
  | delete (id : String)
deriving DecidableEq

def PendingEvent.effect : PendingEvent → String → Option (Option IndexRecord)
  | .upsert record, id => if record.id ≠ "" ∧ record.id = id then some (some record) else none
  | .delete deleted, id => if deleted = id then some none else none

def apply (index : IndexContents) : PendingEvent → IndexContents
  | .delete id => index.remove id
  | .upsert record => index.upsert record

@[simp] theorem apply_at (index : IndexContents) (event : PendingEvent) (id : String)
    : apply index event id = (event.effect id).getD (index id) := by
  cases event with
  | upsert record =>
    by_cases unnamed : record.id = ""
    · simp [apply, IndexContents.upsert, PendingEvent.effect, unnamed]
    by_cases same : record.id = id
    · subst same
      simp [apply, IndexContents.upsert, PendingEvent.effect, unnamed]
    · have apart : id ≠ record.id := fun equal => same equal.symm
      simp [apply, IndexContents.upsert, PendingEvent.effect, unnamed, same, apart]
  | delete deleted =>
    by_cases same : deleted = id
    · subst same
      simp [apply, IndexContents.remove, PendingEvent.effect]
    · have apart : id ≠ deleted := fun equal => same equal.symm
      simp [apply, IndexContents.remove, PendingEvent.effect, same, apart]

theorem applied_at (index : IndexContents) (events : List PendingEvent) (id : String)
    : events.foldl apply index id = settle PendingEvent.effect id (index id) events := by
  induction events generalizing index with
  | nil => rfl
  | cons event rest ih => rw [List.foldl_cons, ih, apply_at, settle_cons]

inductive ServiceState where
  | empty
  | building
  | ready
  | disabled
deriving DecidableEq

structure IndexService where
  index : IndexContents
  state : ServiceState
  buildPromise : Option Nat
  pending : Option (List PendingEvent)
  feedStarted : Bool
  buildSerial : Nat

namespace IndexService

def initial : IndexService where
  index := .clear
  state := .empty
  buildPromise := none
  pending := none
  feedStarted := false
  buildSerial := 0

def markBm25IndexStale (service : IndexService) : IndexService :=
  if service.state = .disabled then service
  else {
    service with
    buildSerial := service.buildSerial + 1
    state := .empty
    buildPromise := none }

def disable (service : IndexService) : IndexService := {
  service with
  state := .disabled
  buildPromise := none
  pending := none
  index := .clear }

def record (service : IndexService) (event : PendingEvent) : IndexService :=
  match service.state with
  | .disabled | .empty => service
  | .building =>
    match service.pending with
    | none => service.markBm25IndexStale
    | some buffered => { service with pending := some (buffered ++ [event]) }
  | .ready => { service with index := apply service.index event }

/-- `live()`: the build with this serial still owns the index and the buffer. -/
def live (service : IndexService) (serial : Nat) : Bool :=
  decide (service.state = .building) && decide (serial = service.buildSerial)

/-- `build` up to its first await, behind a new promise. -/
def startBuild (service : IndexService) : IndexService where
  index := .clear
  state := .building
  buildPromise := some (service.buildSerial + 1)
  pending := some []
  feedStarted := true
  buildSerial := service.buildSerial + 1

/-- The `finally` of a build: its promise is dropped when it is still the current one. -/
def settled (service : IndexService) (serial : Nat) : IndexService :=
  if service.buildPromise = some serial then { service with buildPromise := none }
  else service

/-- The end of a live build: the buffer is taken and replayed over the admitted rows. -/
def finishBuild (service : IndexService) : IndexService := {
  service with
  pending := none
  state := .ready
  index := (service.pending.getD []).foldl apply service.index }

/-- The `catch` of a build. -/
def failBuild (service : IndexService) (serial : Nat) : IndexService :=
  if serial = service.buildSerial then service.disable else service

end IndexService

-- The table, its feed and the hooks

abbrev MemoryId := { id : String // id ≠ "" }

structure MemoryTable where
  rows : String → Option Record
  ids : List String
  listed : ∀ id, rows id ≠ none → id ∈ ids
  keyed : ∀ id row, rows id = some row → id ≠ "" ∧ row.get "id" = some (.str id)

def keyedRow (id : MemoryId) (row : Option Record) : Option Record :=
  row.map fun row => row.set "id" (.str id.val)

def MemoryTable.write (table : MemoryTable) (id : MemoryId) (row : Option Record)
    : MemoryTable where
  rows := Function.update table.rows id.val (keyedRow id row)
  ids := id.val :: table.ids
  listed := by
    intro other held
    by_cases same : other = id.val
    · simp [same]
    · rw [Function.update_of_ne same] at held
      exact List.mem_cons_of_mem id.val (table.listed other held)
  keyed := by
    intro other stored held
    by_cases same : other = id.val
    · subst same
      rw [Function.update_self] at held
      obtain ⟨row, -, rfl⟩ := Option.map_eq_some_iff.mp held
      exact ⟨id.property, by simp⟩
    · rw [Function.update_of_ne same] at held
      exact table.keyed other stored held

def MemoryTable.target (table : MemoryTable) (id : String) : Option IndexRecord :=
  (table.rows id).bind project

/-- The feed's events. A put may arrive without its row; any other type is a marker. -/
inductive FeedEvent where
  | put (value : Option Record)
  | delete (id : String)
  | other (type : String)

/-- What the consumer records of an event; nothing when it marks the index stale. -/
def FeedEvent.usable : FeedEvent → Option PendingEvent
  | .put value => (value.bind project).map .upsert
  | .delete id => some (.delete id)
  | .other _ => none

def consume (service : IndexService) (event : FeedEvent) : IndexService :=
  match event.usable with
  | some usable => service.record usable
  | none => service.markBm25IndexStale

inductive HookCall where
  | noteMemoryUpsert (row : Record)
  | noteMemoryDelete (id : String)

def HookCall.event : HookCall → Option PendingEvent
  | .noteMemoryUpsert row => (project row).map .upsert
  | .noteMemoryDelete id => if id.length > 0 then some (.delete id) else none

def noteMemory (service : IndexService) (call : HookCall) : IndexService :=
  match call.event with
  | some event => service.record event
  | none => service

/-- Where a build is between two of its awaited steps. One that waits has opened the feed
itself; a scan holds the rows as they were when it began and the ids it has yielded.
-/
inductive BuildStage where
  | idle
  | feeding (waits : Bool)
  | counting
  | yielding
  | admitting (view : MemoryTable) (visited : List String)
  | returned

structure IndexingState where
  table : MemoryTable
  queue : List FeedEvent
  subscribed : Bool
  hooks : List HookCall
  service : IndexService
  builds : Nat → BuildStage

-- Steps

/-- The scan may yield a row as it was when the scan began or as it is now. -/
inductive BuildStep where
  | feedReady
  | feedFails
  | counts
  | countEnds
  | opens
  | admits (id : String) (fresh : Bool)
  | scanEnds
  | scanFails

/-- A commit's event may be carried without its row, and not every commit has a hook. A
resync replaces rows with no event but its marker.
-/
inductive IndexingLabel where
  | commit (id : MemoryId) (row : Option Record) (carried hooked : Bool)
  | resync (rows : List (MemoryId × Option Record)) (type : String)
  | subscribe
  | deliver
  | feedEnds
  | hook (position : Nat)
  | query
  | rankFails
  | build (serial : Nat) (step : BuildStep)

namespace IndexingState

def goto (state : IndexingState) (serial : Nat) (stage : BuildStage) : IndexingState :=
  { state with builds := Function.update state.builds serial stage }

def endBuild (state : IndexingState) (serial : Nat) (service : IndexService)
    : IndexingState :=
  { state.goto serial .returned with service := service.settled serial }

def continueBuild (state : IndexingState) (serial : Nat) (next : BuildStage)
    : IndexingState :=
  if state.service.live serial then state.goto serial next
  else state.endBuild serial state.service

def commitEvent (id : MemoryId) (row : Option Record) (carried : Bool) : FeedEvent :=
  match keyedRow id row with
  | some row => .put (if carried then some row else none)
  | none => .delete id.val

def commitHook (id : MemoryId) (row : Option Record) : HookCall :=
  match keyedRow id row with
  | some row => .noteMemoryUpsert row
  | none => .noteMemoryDelete id.val

def emit (state : IndexingState) (event : FeedEvent) : List FeedEvent :=
  if state.subscribed then state.queue ++ [event] else state.queue

def commit (state : IndexingState) (id : MemoryId) (row : Option Record)
    (carried hooked : Bool) : IndexingState := {
  state with
  table := state.table.write id row
  queue := state.emit (commitEvent id row carried)
  hooks := if hooked then state.hooks ++ [commitHook id row] else state.hooks }

def resync (state : IndexingState) (rows : List (MemoryId × Option Record)) (type : String)
    : IndexingState := {
  state with
  table := rows.foldl (fun table change => table.write change.1 change.2) state.table
  queue := state.emit (.other type) }

/-- The feed starts to send events once a build has asked for it. -/
def subscribe (state : IndexingState) : Option IndexingState :=
  if state.service.feedStarted then some { state with subscribed := true } else none

def deliver (state : IndexingState) : Option IndexingState :=
  match state.queue with
  | [] => none
  | event :: rest =>
    some { state with queue := rest, service := consume state.service event }

def callHook (state : IndexingState) (position : Nat) : Option IndexingState :=
  (state.hooks[position]?).map fun call =>
    { state with
      hooks := state.hooks.eraseIdx position
      service := noteMemory state.service call }

/-- `ensureReady`: a query starts a build when the index is not there and no build is. -/
def query (state : IndexingState) : IndexingState :=
  if state.service.state = .disabled ∨ state.service.state = .ready
      ∨ state.service.buildPromise ≠ none then state
  else {
    state with
    service := state.service.startBuild
    builds := Function.update state.builds (state.service.buildSerial + 1)
      (.feeding !state.service.feedStarted) }

def collect (state : IndexingState) (serial : Nat) (view : MemoryTable)
    (visited : List String) (id : String) (fresh : Bool) : IndexingState :=
  if state.service.live serial then
    let admitted := (if fresh then state.table else view).target id
    { state.goto serial (.admitting view (id :: visited)) with
      service := {
        state.service with
        index := (admitted.map state.service.index.upsert).getD state.service.index } }
  else state.endBuild serial state.service

def finish (state : IndexingState) (serial : Nat) : IndexingState :=
  state.endBuild serial
    (if state.service.live serial then state.service.finishBuild else state.service)

def buildStep (state : IndexingState) (serial : Nat) : BuildStep → Option IndexingState
  | .feedReady =>
    match state.builds serial with
    | .feeding waits =>
      if waits = true ∧ state.subscribed = false then none
      else some (state.continueBuild serial .counting)
    | _ => none
  | .feedFails =>
    match state.builds serial with
    | .feeding true =>
      if state.subscribed then none
      else some (state.endBuild serial (state.service.failBuild serial))
    | _ => none
  | .counts =>
    match state.builds serial with
    | .counting => some (state.continueBuild serial .counting)
    | _ => none
  | .countEnds =>
    match state.builds serial with
    | .counting => some (state.continueBuild serial .yielding)
    | _ => none
  | .opens =>
    match state.builds serial with
    | .yielding => some (state.continueBuild serial (.admitting state.table []))
    | _ => none
  | .admits id fresh =>
    match state.builds serial with
    | .admitting view visited =>
      if id ∈ visited then none else some (state.collect serial view visited id fresh)
    | _ => none
  | .scanEnds =>
    match state.builds serial with
    | .admitting view visited =>
      if ∀ id ∈ view.ids, id ∈ visited then some (state.finish serial) else none
    | _ => none
  | .scanFails =>
    match state.builds serial with
    | .counting | .yielding | .admitting _ _ =>
      some (state.endBuild serial (state.service.failBuild serial))
    | _ => none

end IndexingState

open IndexingState in
def indexingStep (state : IndexingState) : IndexingLabel → Option IndexingState
  | .commit id row carried hooked => some (state.commit id row carried hooked)
  | .resync rows type => some (state.resync rows type)
  | .subscribe => state.subscribe
  | .deliver => state.deliver
  | .feedEnds =>
    if state.subscribed then some { state with service := state.service.disable } else none
  | .hook position => state.callHook position
  | .query => some state.query
  | .rankFails =>
    if state.service.state = .ready then some { state with service := state.service.disable }
    else none
  | .build serial step => state.buildStep serial step

structure IndexingStart (state : IndexingState) : Prop where
  unsubscribed : state.subscribed = false
  quiet : state.queue = []
  unhooked : state.hooks = []
  service : state.service = .initial
  builds : ∀ serial, state.builds serial = .idle

def indexing : System IndexingState IndexingLabel where
  initial := IndexingStart
  step := indexingStep

end Flair.Lexical
