import Flair.Foundations.IsoTime
import Flair.Foundations.Objects

/-! The states of relayed messages: the absorbing rule, and the decision of a deadline
sweep. Follows `resources/relay-lib.ts`.
-/

namespace Flair.Relay

open Dynamic

def submitted : Value := .str "submitted"

def delivered : Value := .str "delivered"

def consumed : Value := .str "consumed"

def failed : Value := .str "failed"

def isUnconsumed (state : Option Value) : Bool :=
  decide (state = some submitted ∨ state = some delivered)

/-- `reconcileState`: `consumed` wins in either position, a local `failed` yields only to it. -/
def reconcileState (localState incomingState : Option Value) : Option Value :=
  if localState = some consumed ∨ incomingState = some consumed then some consumed
  else if localState = some failed then some failed
  else incomingState

@[simp] theorem reconcileState_self (state : Option Value)
    : reconcileState state state = state := by
  unfold reconcileState
  by_cases absorbed : state = some consumed
  · simp [absorbed]
  by_cases lost : state = some failed
  · subst lost
    simp [consumed, failed]
  · simp [absorbed, lost]

@[simp] theorem reconcileState_consumed_right (localState : Option Value)
    : reconcileState localState (some consumed) = some consumed := by
  simp [reconcileState]

/-- `new Date(deadline).getTime()` of a truthy deadline: a number, a flag or the text of a
timestamp; `none` is `NaN`.
-/
def deadlineInstant : Value → Option Int
  | .str text => (IsoTime.readTimestamp text).bind IsoTime.Parts.instant
  | .num amount =>
    if -8640000000000000 ≤ amount ∧ amount ≤ 8640000000000000
    then some (amount.num.tdiv amount.den)
    else none
  | .bool flag => some (if flag then 1 else 0)
  | .null => some 0
  | .arr _ | .obj _ => none

/-- `sweepDecision`: the failure reason of an unconsumed row whose deadline has passed. A
comparison with `NaN` is false, so a deadline that cannot be read has passed.
-/
def sweepDecision (row : Record) (now : Int) : Option String :=
  if !isUnconsumed (row.get "state") then none
  else
    match row.get "deadline" with
    | none => none
    | some deadline =>
      if !truthy (some deadline) then none
      else
        match deadlineInstant deadline with
        | some due => if now < due then none else some "deadline"
        | none => some "deadline"

end Flair.Relay
