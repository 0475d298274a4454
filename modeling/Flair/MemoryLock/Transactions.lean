import Flair.MemoryLock.Calls

/-! The locked Memory transaction: the work of one scope, the checked writes it admits, and the
scope's own steps from its transaction to the answer, interleaved in any order. Follows
`resources/memory-write-transaction.ts` and `enterCheckedWrite` of `resources/Memory.ts`.
-/

namespace Flair.MemoryLock

open Transition

-- Writes

/-- What a scope can throw: an error of the caller's code or of the store, a capability
refusal, or the scope's own error about a body that did neither.
-/
inductive ScopeError (Fault : Type) where
  | thrown (fault : Fault)
  | capability (refusal : CapabilityRefusal)
  | neitherStagedNorRefused
deriving DecidableEq

/-- How a promise of the caller's code settles. -/
inductive Settlement (Value Response Fault : Type) where
  | value (value : Value)
  | response (response : Response)
  | rejected (error : ScopeError Fault)
deriving DecidableEq

/-- The receipt promise of a tracked write: `MemoryWriteReceipt` once it is fulfilled. -/
inductive WriteReceipt (Response Fault : Type) where
  | pending
  | staged (id : String)
  | refused (response : Response)
  | rejected (error : ScopeError Fault)
deriving DecidableEq

structure TrackedWrite (Value Response Fault : Type) where
  id : String
  receipt : WriteReceipt Response Fault
  answer : Option (Settlement Value Response Fault)
  resumed : Option Bool
deriving DecidableEq

namespace WriteReceipt

variable {Response Fault : Type}

def isPending : WriteReceipt Response Fault → Bool
  | .pending => true
  | _ => false

def isStaged : WriteReceipt Response Fault → Bool
  | .staged _ => true
  | _ => false

def error : WriteReceipt Response Fault → Option (ScopeError Fault)
  | .rejected error => some error
  | _ => none

def refusal : WriteReceipt Response Fault → Option Response
  | .refused response => some response
  | _ => none

end WriteReceipt

namespace TrackedWrite

variable {Value Response Fault : Type}

/-- A write as `track` records it. -/
def tracked (id : String) : TrackedWrite Value Response Fault where
  id := id
  receipt := .pending
  answer := none
  resumed := none

/-- `stage()`: the first call settles the receipt, a second one changes nothing. -/
def stage (write : TrackedWrite Value Response Fault) : TrackedWrite Value Response Fault :=
  match write.receipt with
  | .pending => { write with receipt := .staged write.id }
  | _ => write

def settle (write : TrackedWrite Value Response Fault)
    (answer : Settlement Value Response Fault)
    : TrackedWrite Value Response Fault :=
  { write with
    answer := some answer
    receipt :=
      match write.receipt, answer with
      | .pending, .response response => .refused response
      | .pending, .value _ => .rejected .neitherStagedNorRefused
      | .pending, .rejected error => .rejected error
      | receipt, _ => receipt }

/-- `open(committed)`: a gate resolves once, a second call changes nothing. -/
def resume (committed : Bool) (write : TrackedWrite Value Response Fault)
    : TrackedWrite Value Response Fault :=
  { write with resumed := write.resumed <|> some committed }

end TrackedWrite

-- Scopes

inductive ScopePhase where
  | opened
  | draining
  | closed
deriving DecidableEq

/-- `LockedTransactionOutcome`, or the error the call rejects with. -/
inductive ScopeOutcome (Value Response Fault : Type) where
  | committed (value : Value) (confirmed : List Value)
  | refused (response : Response)
  | threw (error : ScopeError Fault)
deriving DecidableEq

structure Confirmations (Value Response Fault : Type) where
  confirmed : List Value
  refusal : Option Response
  firstError : Option (ScopeError Fault)
deriving DecidableEq

/-- Where the scope's own code is. `waiting` says that the first write of `todo` has been
resumed and its answer is awaited.
-/
inductive ScopeControl (Value Response Fault : Type) where
  | starting
  | working
  | draining
  | committing (value : Value)
  | confirming (value : Value) (todo : List Nat) (waiting : Bool)
      (seen : Confirmations Value Response Fault)
  | closing (outcome : ScopeOutcome Value Response Fault)
  | returned (outcome : ScopeOutcome Value Response Fault)
deriving DecidableEq

/-- What a scope has seen. Writes are numbered in the order they were admitted, `staged` lists
them in the order they staged, `committed` is the rows of the transaction once it has
committed, and `refusals` records every refused admission with the phase it met.
-/
structure ScopeState (Value Response Fault : Type) where
  phase : ScopePhase
  work : Option (Settlement Value Response Fault)
  failure : Option (ScopeError Fault)
  refusals : List (ScopePhase × CapabilityRefusal)
  writes : List (TrackedWrite Value Response Fault)
  staged : List Nat
  committed : Option (List Nat)
  transactionError : Option (ScopeError Fault)
deriving DecidableEq

structure ScopeRun (Value Response Fault : Type) where
  control : ScopeControl Value Response Fault
  state : ScopeState Value Response Fault
deriving DecidableEq

/-- How the call of the store's transaction settles after its callback: committed, or
rejected, before the rows were committed or after (the coverage check of a write journal).
-/
inductive TransactionEnd (Fault : Type) where
  | committed
  | rejected (error : ScopeError Fault) (landed : Bool)

/-- The steps of the scope, of its work and of the bodies of its writes. An admission carries
the token check's answer and whether the acquisition and the transaction are the scope's.
-/
inductive ScopeLabel (Value Response Fault : Type) where
  | begin (error : Option (ScopeError Fault))
  | enter (id : String) (token : Except CapabilityRefusal Unit)
      (sameAcquisition transactionOpen : Bool)
  | stage (write : Nat)
  | settle (write : Nat) (answer : Settlement Value Response Fault)
  | settleWork (answer : Settlement Value Response Fault)
  | decide
  | commit (answer : TransactionEnd Fault)
  | confirm
  | confirmed
  | report
  | close

section

variable {Value Response Fault : Type}

namespace ScopeState

def unopened : ScopeState Value Response Fault where
  phase := .closed
  work := none
  failure := none
  refusals := []
  writes := []
  staged := []
  committed := none
  transactionError := none

/-- `admitLockedMemoryWrite`, after the scope of the handle was found. -/
def admitLockedMemoryWrite (state : ScopeState Value Response Fault)
    (token : Except CapabilityRefusal Unit) (sameAcquisition transactionOpen : Bool)
    : Except CapabilityRefusal Unit :=
  match token with
  | .error refusal => .error refusal
  | .ok () =>
    if sameAcquisition = false then .error .transactionMismatch
    else if state.phase ≠ .opened ∨ transactionOpen = false then .error .transactionClosed
    else .ok ()

/-- `enterCheckedWrite`: the write is tracked in the same turn as it is admitted. -/
def enter (state : ScopeState Value Response Fault) (id : String)
    (token : Except CapabilityRefusal Unit) (sameAcquisition transactionOpen : Bool)
    : ScopeState Value Response Fault :=
  match state.admitLockedMemoryWrite token sameAcquisition transactionOpen with
  | .error refusal => {
      state with
      refusals := state.refusals ++ [(state.phase, refusal)]
      failure :=
        if state.phase = .opened then state.failure <|> some (.capability refusal)
        else state.failure }
  | .ok () => { state with writes := state.writes ++ [.tracked id] }

/-- What the scope decides once every receipt has settled: `none` commits. -/
def abortOutcome (state : ScopeState Value Response Fault)
    : Settlement Value Response Fault → Option (ScopeOutcome Value Response Fault)
  | .rejected error => some (.threw error)
  | .response response =>
    match state.failure, state.writes.findSome? (fun write => write.receipt.error) with
    | some error, _ | none, some error => some (.threw error)
    | none, none => some (.refused response)
  | .value _ =>
    match state.failure, state.writes.findSome? (fun write => write.receipt.error) with
    | some error, _ | none, some error => some (.threw error)
    | none, none =>
      (state.writes.findSome? (fun write => write.receipt.refusal)).map .refused

def drained (state : ScopeState Value Response Fault) : Bool :=
  state.writes.all fun write => !write.receipt.isPending

end ScopeState

def Confirmations.add (seen : Confirmations Value Response Fault)
    : Settlement Value Response Fault → Confirmations Value Response Fault
  | .value value => { seen with confirmed := seen.confirmed ++ [value] }
  | .response response => { seen with refusal := seen.refusal <|> some response }
  | .rejected error => { seen with firstError := seen.firstError <|> some error }

def Confirmations.outcome (seen : Confirmations Value Response Fault) (value : Value)
    : ScopeOutcome Value Response Fault :=
  match seen.firstError, seen.refusal with
  | some error, _ => .threw error
  | none, some response => .refused response
  | none, none => .committed value seen.confirmed

-- Steps

namespace ScopeState

def stageStep (state : ScopeState Value Response Fault) (write : Nat)
    : Option (ScopeState Value Response Fault) :=
  match state.writes[write]? with
  | some body =>
    if body.answer.isSome then none
    else if body.receipt.isPending then
      some { state with
        writes := state.writes.set write body.stage
        staged := state.staged ++ [write] }
    else some state
  | none => none

def settleStep (state : ScopeState Value Response Fault) (write : Nat)
    (answer : Settlement Value Response Fault)
    : Option (ScopeState Value Response Fault) :=
  match state.writes[write]? with
  | some body =>
    if body.answer.isSome then none
    else some { state with writes := state.writes.set write (body.settle answer) }
  | none => none

def resumeAll (state : ScopeState Value Response Fault) (committed : Bool)
    (chosen : List Nat)
    : List (TrackedWrite Value Response Fault) :=
  state.writes.mapIdx fun write body =>
    if write ∈ chosen then body.resume committed else body

end ScopeState

namespace ScopeRun

def unstarted : ScopeRun Value Response Fault where
  control := .starting
  state := ScopeState.unopened

def goto (run : ScopeRun Value Response Fault) (control : ScopeControl Value Response Fault)
    : ScopeRun Value Response Fault :=
  { run with control }

def settleCommit (run : ScopeRun Value Response Fault) (value : Value)
    : TransactionEnd Fault → ScopeRun Value Response Fault
  | .committed => {
      control := .confirming value run.state.staged false ⟨[], none, none⟩
      state := { run.state with committed := some run.state.staged } }
  | .rejected error landed => {
      control := .closing (.threw error)
      state := {
        run.state with
        committed := if landed then some run.state.staged else none
        transactionError := some error } }

end ScopeRun

def scopeStep (run : ScopeRun Value Response Fault)
    : ScopeLabel Value Response Fault → Option (ScopeRun Value Response Fault)
  | .begin error =>
    match run.control, error with
    | .starting, none =>
      some { control := .working, state := { run.state with phase := .opened } }
    -- the scope or its transaction was refused before the work could run
    | .starting, some error => some (run.goto (.closing (.threw error)))
    | _, _ => none
  | .enter id token sameAcquisition transactionOpen =>
    match run.control with
    | .starting => none
    | _ =>
      some { run with state := run.state.enter id token sameAcquisition transactionOpen }
  | .stage write => (run.state.stageStep write).map fun state => { run with state }
  | .settle write answer =>
    (run.state.settleStep write answer).map fun state => { run with state }
  | .settleWork answer =>
    match run.control with
    | .working =>
      some {
        control := .draining
        state := { run.state with phase := .draining, work := some answer } }
    | _ => none
  | .decide =>
    match run.control, run.state.work, run.state.drained with
    | .draining, some answer, true =>
      match run.state.abortOutcome answer, answer with
      | none, .value value => some (run.goto (.committing value))
      | none, _ => none
      | some outcome, _ => some (run.goto (.closing outcome))
    | _, _, _ => none
  | .commit answer =>
    match run.control with
    | .committing value => some (run.settleCommit value answer)
    | _ => none
  | .confirm =>
    match run.control with
    | .confirming value (write :: rest) false seen =>
      some {
        control := .confirming value (write :: rest) true seen
        state := { run.state with writes := run.state.resumeAll true [write] } }
    | _ => none
  | .confirmed =>
    match run.control with
    | .confirming value (write :: rest) true seen =>
      (run.state.writes[write]?.bind TrackedWrite.answer).map fun answer =>
        run.goto (.confirming value rest false (seen.add answer))
    | _ => none
  | .report =>
    match run.control with
    | .confirming value [] false seen => some (run.goto (.closing (seen.outcome value)))
    | _ => none
  | .close =>
    match run.control with
    | .closing outcome =>
      some {
        control := .returned outcome
        state := {
          run.state with
          phase := .closed
          writes := run.state.resumeAll false run.state.staged } }
    | _ => none

/-- A call of `withLockedMemoryTransaction` from its start. -/
def lockedTransaction
    : System (ScopeRun Value Response Fault) (ScopeLabel Value Response Fault) where
  initial run := run = ScopeRun.unstarted
  step := scopeStep

end

end Flair.MemoryLock
