import Flair.Foundations.Systems
import Flair.WriteBack.StoredRows

/-! `writeBackCommittedRow` as a transition system over one stored row: the helper's own
awaited steps, other writers' commits between any two of them, and a store whose commit may
land, be dropped, or fail. Follows `resources/write-back.ts`.
-/

namespace Flair.WriteBack

open Dynamic Transition

/-- The `WriteBackOptions` that decide something, and the call's `plan` callback. `plan`
also takes the attempt's number: what else the callback reads may differ between attempts.
`none` from `plan` is a callback that throws.
-/
structure Call where
  plan : Nat → Option Record → Option Plan
  attempts : Nat
  expectedRow : Option (Option Record)
  «matches» : Option Record → Bool
  matchFields : List String
  wholeRow : Bool
  verifyAlso : Option Record → Bool

/-- `sameTarget`: the in-transaction row is the row the call selected. -/
def Call.sameTarget (call : Call) (basis row : Option Record) : Bool :=
  match row, basis with
  | none, basis => basis.isNone
  | some _, none => false
  | some row, some basis =>
    sameStoredRow (some row) (some basis)
    && (!call.wholeRow || decide (row = basis))
    && decide (∀ field ∈ call.matchFields, row.get field = basis.get field)

/-- How a call fails: its named error with the two outcomes, or another error. -/
inductive Failure where
  | conflict
  | unconfirmed
  | threw
deriving DecidableEq

inductive Event where
  | otherCommit
  | planned (row : Option Record) (plan : Plan)
  | committed (plan : Plan) (writeId : String) (landed : Bool)
  | readBack (row : Option Record)
deriving DecidableEq

inductive Phase where
  | selecting
  | opening
  | planning (row : Option Record)
  | staging (row : Option Record) (plan : Plan)
  | staged (row : Option Record) (plan : Plan) (writeId : String)
  | confirmed (row : Option Record) (plan : Plan) (writeId : String)
  | verifying (row : Option Record) (plan : Plan) (writeId : String)
  | resolved (plan : Plan)
  | failed (failure : Failure)
deriving DecidableEq

structure State where
  stored : Option Record
  basis : Option Record
  attempt : Nat
  phase : Phase
  log : List Event
deriving DecidableEq

/-- What the store does with a transaction's commit: it may resolve or reject, and either
way the staged write may or may not have landed.
-/
inductive Label where
  | other (row : Option Record)
  | advance
  | readFails
  | stage (writeId : String)
  | stageFails
  | commit (resolves landed : Bool)
deriving DecidableEq

def State.note (state : State) (event : Event) : State :=
  { state with log := state.log ++ [event] }

def State.goto (state : State) (phase : Phase) : State := { state with phase }

@[simp] theorem State.goto_phase (state : State) (phase : Phase)
    : (state.goto phase).phase = phase := rfl

@[simp] theorem State.goto_stored (state : State) (phase : Phase)
    : (state.goto phase).stored = state.stored := rfl

@[simp] theorem State.note_stored (state : State) (event : Event)
    : (state.note event).stored = state.stored := rfl

def State.retry (state : State) (call : Call) (failure : Failure) : State :=
  if call.attempts ≤ state.attempt then state.goto (.failed failure)
  else { state with attempt := state.attempt + 1, phase := .opening }

/-- The decision on the in-transaction row: a skip commits nothing, a row that is not the
selected one aborts by name, any other plan goes on to its write.
-/
def State.decide (state : State) (call : Call) (row : Option Record) : State :=
  match call.plan state.attempt row with
  | none => state.goto (.failed .threw)
  | some (.skip reason) => state.goto (.resolved (.skip reason))
  | some plan =>
    if call.sameTarget state.basis row
    then (state.note (.planned row plan)).goto (.staging row plan)
    else state.goto (.failed .conflict)

def State.verify (state : State) (call : Call) (plan : Plan) (writeId : String) : State :=
  let seen := state.note (.readBack state.stored)
  if committedShowsWrite state.stored state.basis plan writeId && call.verifyAlso state.stored
  then seen.goto (.resolved plan)
  else if plan.idempotent then seen.retry call .unconfirmed
  else seen.goto (.failed .unconfirmed)

def step (call : Call) (state : State) : Label → Option State
  | .other row => some ({ state with stored := row }.note .otherCommit)
  | .advance =>
    match state.phase with
    | .selecting =>
      some { state with basis := call.expectedRow.getD state.stored, phase := .opening }
    | .opening =>
      if call.matches state.stored then some (state.goto (.planning state.stored))
      else some (state.goto (.resolved (.skip none)))
    | .planning row => some (state.decide call row)
    | .staged row plan writeId =>
      -- `confirmCommittedRow`: the committed row must still be the row read in the
      -- transaction, else the transaction aborts and the attempt wrote nothing.
      if state.stored = row then some (state.goto (.confirmed row plan writeId))
      else some (state.retry call .conflict)
    | .verifying _ plan writeId => some (state.verify call plan writeId)
    | _ => none
  | .readFails =>
    match state.phase with
    | .selecting => if call.expectedRow.isNone then some (state.goto (.failed .threw)) else none
    | .opening | .staged _ _ _ => some (state.goto (.failed .threw))
    | .verifying _ plan _ =>
      some (state.goto (.failed (if plan.idempotent then .threw else .unconfirmed)))
    | _ => none
  | .stage writeId =>
    match state.phase with
    | .staging row plan =>
      if plan.markerField = some "" then some (state.goto (.failed .threw))
      else some (state.goto (.staged row plan writeId))
    | _ => none
  | .stageFails =>
    match state.phase with
    | .staging _ _ => some (state.goto (.failed .threw))
    | _ => none
  | .commit resolves landed =>
    match state.phase with
    | .confirmed row plan writeId =>
      let after := if landed then plan.landed writeId state.stored else state.stored
      let next := { state with stored := after }.note (.committed plan writeId landed)
      if resolves then some (next.goto (.verifying row plan writeId))
      else some (next.goto (.failed .threw))
    | _ => none

/-- A call starts over any stored row, before its first read. -/
def Started (state : State) : Prop :=
  state.basis = none ∧ state.attempt = 1 ∧ state.phase = .selecting ∧ state.log = []

def system (call : Call) : System State Label where
  initial := Started
  step := step call

end Flair.WriteBack
