import Mathlib.Algebra.Order.Ring.Rat
import Flair.Foundations.KeyLedger
import Flair.Foundations.Systems

/-! Single use of signed requests: any number of requests on any number of threads pass the
freshness check, the thread's cache and the claim on the shared nonce table, one transition for
each store call. Follows `resources/replay-store.ts` and `resources/federation-crypto.ts`.
-/

namespace Flair.Replay

open KeyLedger Transition

-- Keys and windows

inductive ReplayScope where
  | agent
  | federation
deriving DecidableEq

def ReplayScope.text : ReplayScope → String
  | .agent => "a"
  | .federation => "f"

def ReplayScope.full (scope : ReplayScope) (key : String) : String :=
  scope.text ++ ":" ++ key

/-- `REPLAY_RETENTION_MS`: how long a row is kept after it was written. -/
def replayRetentionMs : Rat := 120000

/-- `FEDERATION_WINDOW_MS`, also the default window of agent requests. -/
def defaultWindowMs : Rat := 30000

structure ReplaySettings where
  windowMs : ReplayScope → Rat
  cacheLimit : ReplayScope → Nat

/-- `replayWindowGap`: the window cannot use the store. -/
def ReplaySettings.windowGap (settings : ReplaySettings) (scope : ReplayScope) : Bool :=
  decide (settings.windowMs scope ≤ 0) || decide (replayRetentionMs ≤ 2 * settings.windowMs scope)

inductive FreshRefusal where
  | stale
  | future
  | replay
  | invalidSignature
  | replayStoreUnavailable
deriving DecidableEq

/-- The timestamp check of `precheckFresh`: why the timestamp does not pass now. -/
def timestampRefusal (windowMs now ts : Rat) : Option FreshRefusal :=
  if windowMs < now - ts then some .stale
  else if now - ts < -windowMs then some .future
  else none

-- The cache of one thread

/-- A guard's memory on one thread: the keys it has seen recorded, and its last pruning. -/
structure ReplayCache where
  seen : List (String × Rat)
  lastPrune : Rat
deriving DecidableEq

namespace ReplayCache

def empty : ReplayCache where
  seen := []
  lastPrune := 0

/-- `prune`: at most once a second, unless the cache is full. -/
def prune (cache : ReplayCache) (windowMs : Rat) (cacheLimit : Nat) (now : Rat)
    : ReplayCache :=
  if now - cache.lastPrune < 1000 ∧ cache.seen.length < cacheLimit then cache
  else
    let kept := cache.seen.filter fun entry => decide (now - entry.2 ≤ 2 * windowMs)
    { seen := if cacheLimit ≤ kept.length then [] else kept, lastPrune := now }

def has (cache : ReplayCache) (key : String) : Bool := cache.seen.any fun entry => entry.1 == key

/-- `seen.set(key, now)` -/
def remember (cache : ReplayCache) (key : String) (now : Rat) : ReplayCache :=
  { cache with seen := (key, now) :: cache.seen.filter fun entry => decide (entry.1 ≠ key) }

end ReplayCache

-- Requests

/-- How `recordOnce` ended under the lock: it wrote the row, found one, or something threw.
The times are ghosts: the read that found no row, and the put that wrote it.
-/
inductive RecordEnd where
  | recorded (readAt writtenAt : Rat)
  | replay
  | threw
deriving DecidableEq

inductive RequestStage where
  | idle
  | prechecked
  | claiming
  | locked
  | writing (readAt : Rat)
  | committing (readAt writtenAt : Rat)
  | unlocking (result : RecordEnd)
  | refused (reason : FreshRefusal)
  | letThrough (readAt writtenAt decidedAt : Rat)
deriving DecidableEq

/-- A request: the thread that serves it, what it signed, when its timestamp passed and when
its claim began. `holds` says that it holds the lock of its key, `storeFailed` that its claim
met a failure of the store.
-/
structure Request where
  thread : Nat
  scope : ReplayScope
  nonce : String
  ts : Rat
  passedAt : Rat
  claimedAt : Rat
  stage : RequestStage
  holds : Bool
  storeFailed : Bool
deriving DecidableEq

def idleRequest : Request where
  thread := 0
  scope := .federation
  nonce := ""
  ts := 0
  passedAt := 0
  claimedAt := 0
  stage := .idle
  holds := false
  storeFailed := false

namespace Request

def key (request : Request) : String := request.scope.full request.nonce

def goto (request : Request) (stage : RequestStage) : Request := { request with stage }

def refuse (request : Request) (reason : FreshRefusal) : Request :=
  request.goto (.refused reason)

def fail (request : Request) (stage : RequestStage) : Request :=
  { request with stage, storeFailed := true }

end Request

/-- The instance: its clock, the locks, the stored rows with the time each was written, the
threads' caches and the requests.
-/
structure ReplayState where
  clock : Rat
  ledger : Ledger String Nat
  rows : String → Option Rat
  caches : Nat → ReplayScope → ReplayCache
  request : Nat → Request

namespace ReplayState

def put (state : ReplayState) (id : Nat) (request : Request) : ReplayState :=
  { state with request := Function.update state.request id request }

def setCache (state : ReplayState) (thread : Nat) (scope : ReplayScope) (cache : ReplayCache)
    : ReplayState :=
  { state with
    caches :=
      Function.update state.caches thread (Function.update (state.caches thread) scope cache) }

end ReplayState

-- Steps

/-- What a store call does: it answers, or it throws, a commit before or after it landed and
a release before or after it freed the lock.
-/
inductive StoreCall where
  | answered
  | threw (landed : Bool)
deriving DecidableEq

/-- The steps of time, of the requests and of the table's expiration. A received body lacks a
field or has a nonce and a timestamp; `valid` is its signature's check.
-/
inductive ReplayLabel where
  | tick (elapsed : Rat)
  | receive (id thread : Nat) (scope : ReplayScope) (fields : Option (String × Rat))
  | recollect (id : Nat) (valid : Bool)
  | lock (id : Nat) (gap : Bool) (call : StoreCall)
  | read (id : Nat) (call : StoreCall)
  | write (id : Nat)
  | commit (id : Nat) (call : StoreCall)
  | unlock (id : Nat) (call : StoreCall)
  | expire (key : String)
  | clear (thread : Nat) (scope : ReplayScope)

variable (settings : ReplaySettings)

/-- `precheckFresh` of a received body. -/
def receiveRequest (now : Rat) (thread : Nat) (scope : ReplayScope)
    (fields : Option (String × Rat))
    : Request :=
  match fields with
  | none => { idleRequest with thread, scope, stage := .refused .invalidSignature }
  | some (nonce, ts) =>
    { idleRequest with
      thread
      scope
      nonce
      ts
      passedAt := now
      stage :=
        match timestampRefusal (settings.windowMs scope) now ts with
        | some refusal => .refused refusal
        | none => .prechecked }

/-- `knownReplay`, then the signature. -/
def recollectStep (state : ReplayState) (id : Nat) (valid : Bool) : Option ReplayState :=
  let request := state.request id
  let cache :=
    (state.caches request.thread request.scope).prune (settings.windowMs request.scope)
      (settings.cacheLimit request.scope) request.passedAt
  match request.stage with
  | .prechecked =>
    some ((state.setCache request.thread request.scope cache).put id
      (if cache.has request.key then request.refuse .replay
      else if valid then request.goto .claiming
      else request.refuse .invalidSignature))
  | _ => none

def unavailable : RequestStage := .refused .replayStoreUnavailable

/-- The start of `claim`: the contract checks, then `tryLock`. -/
def lockStep (state : ReplayState) (id : Nat) (gap : Bool) (call : StoreCall)
    : Option ReplayState :=
  let request := { state.request id with claimedAt := state.clock }
  match (state.request id).stage, call with
  | .claiming, .threw _ => some (state.put id (request.fail unavailable))
  | .claiming, .answered =>
    if settings.windowGap request.scope || gap then
      some (state.put id (request.fail unavailable))
    else
      match state.ledger.tryLock id request.key with
      | some ledger =>
        some ({ state with ledger }.put id { request with stage := .locked, holds := true })
      | none => some (state.put id (request.refuse .replay))
  | _, _ => none

/-- `getEntry`, then the branch on the row. -/
def readStep (state : ReplayState) (id : Nat) (call : StoreCall) : Option ReplayState :=
  let request := state.request id
  match request.stage, call with
  | .locked, .threw _ => some (state.put id (request.fail (.unlocking .threw)))
  | .locked, .answered =>
    some (state.put id (request.goto
      (match state.rows request.key with
      | some _ => .unlocking .replay
      | none => .writing state.clock)))
  | _, _ => none

def commitStep (state : ReplayState) (id : Nat) (call : StoreCall) : Option ReplayState :=
  let request := state.request id
  match request.stage with
  | .committing readAt writtenAt =>
    let written := { state with rows := Function.update state.rows request.key (some writtenAt) }
    match call with
    | .answered => some (written.put id (request.goto (.unlocking (.recorded readAt writtenAt))))
    | .threw landed =>
      some ((if landed then written else state).put id (request.fail (.unlocking .threw)))
  | _ => none

def answerClaim (state : ReplayState) (id : Nat) (request : Request) (result : RecordEnd)
    : ReplayState :=
  let cache :=
    (state.caches request.thread request.scope).prune (settings.windowMs request.scope)
      (settings.cacheLimit request.scope) request.claimedAt
  let remembered :=
    state.setCache request.thread request.scope (cache.remember request.key request.claimedAt)
  match result with
  | .recorded readAt writtenAt =>
    remembered.put id (request.goto (.letThrough readAt writtenAt state.clock))
  | .replay => remembered.put id (request.refuse .replay)
  | .threw => state.put id (request.fail unavailable)

/-- The `finally` of `recordOnce`. -/
def unlockStep (state : ReplayState) (id : Nat) (call : StoreCall) : Option ReplayState :=
  let request := state.request id
  let released := { state with ledger := state.ledger.unlock id request.key }
  match request.stage, call with
  | .unlocking result, .answered =>
    some (answerClaim settings released id { request with holds := false } result)
  | .unlocking _, .threw true =>
    some (released.put id ({ request with holds := false }.fail unavailable))
  | .unlocking _, .threw false => some (state.put id (request.fail unavailable))
  | _, _ => none

def replayStep (state : ReplayState) : ReplayLabel → Option ReplayState
  | .tick elapsed =>
    if 0 ≤ elapsed then some { state with clock := state.clock + elapsed } else none
  | .receive id thread scope fields =>
    match (state.request id).stage with
    | .idle => some (state.put id (receiveRequest settings state.clock thread scope fields))
    | _ => none
  | .recollect id valid => recollectStep settings state id valid
  | .lock id gap call => lockStep settings state id gap call
  | .read id call => readStep state id call
  | .write id =>
    match (state.request id).stage with
    | .writing readAt =>
      some (state.put id ((state.request id).goto (.committing readAt state.clock)))
    | _ => none
  | .commit id call => commitStep state id call
  | .unlock id call => unlockStep settings state id call
  | .expire key =>
    match state.rows key with
    | some writtenAt =>
      if writtenAt + replayRetentionMs ≤ state.clock then
        some { state with rows := Function.update state.rows key none }
      else none
    | none => none
  | .clear thread scope => some (state.setCache thread scope .empty)

/-- No request has arrived; the table and the caches hold anything. -/
def replayGuards : System ReplayState ReplayLabel where
  initial state := state.ledger = Ledger.fresh ∧ ∀ id, state.request id = idleRequest
  step := replayStep settings

end Flair.Replay
