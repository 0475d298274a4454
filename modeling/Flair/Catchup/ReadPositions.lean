import Flair.Foundations.Objects
import Flair.Foundations.Systems

/-! The read position of one agent and stream under any number of `advanceReadPosition` and
`ensureReadPosition` calls on any number of workers, one transition for each awaited step.
Follows `resources/agent-read-position.ts` and the comparison of
`resources/agent-read-position-lib.ts`.
-/

namespace Flair.Catchup

open Dynamic Transition

-- Positions

/-- `compareKey` on strings. -/
def compareKey (a b : String) : Int :=
  if textLt a b then -1 else if textLt b a then 1 else 0

def comparePosition (a b : String) : Int := compareKey a b

theorem comparePosition_le_zero {a b : String}
    : comparePosition a b ≤ 0 ↔ ¬ textLt b a := by
  unfold comparePosition compareKey
  split
  · rename_i before
    simp [textLt_asymm before]
  split
  · rename_i after
    simp [after]
  · rename_i after
    simp [after]

/-- The position of a stored row; `none` for a row whose position is not a string. -/
def rowPosition (row : Record) : Option String := asString (row.get "position")

/-- What `readRow` makes of the row under the id when the get does not throw. -/
def storedPosition (row : Option Record) : Option String := row.bind rowPosition

-- Calls

structure ReadPositionKey where
  agentId : String
  stream : String

def readPositionId (key : ReadPositionKey) : String := key.agentId ++ ":" ++ key.stream

def positionRow (key : ReadPositionKey) (position now : String) : Record :=
  Record.ofFields [("id", .str (readPositionId key)), ("agentId", .str key.agentId),
    ("stream", .str key.stream), ("position", .str position), ("updatedAt", .str now)]

@[simp] theorem rowPosition_positionRow (key : ReadPositionKey) (position now : String)
    : rowPosition (positionRow key position now) = some position := by
  simp [rowPosition, positionRow, Record.ofFields, asString]

inductive PositionWork where
  | advance (position : String)
  | ensure (initial : String)
deriving DecidableEq

/-- `AdvanceResult`, and the position an `ensureReadPosition` returns. -/
inductive PositionAnswer where
  | advanced (position : String) (advanced : Bool)
  | ensured (position : String)
deriving DecidableEq

/-- What a call does once its get has returned: it answers or goes on to its put. -/
inductive AfterRead where
  | answer (answer : PositionAnswer)
  | put (position : String)
deriving DecidableEq

def PositionWork.afterRead (existing : Option String) : PositionWork → AfterRead
  | .ensure initial =>
    match existing with
    | some position => .answer (.ensured position)
    | none => .put initial
  | .advance position =>
    let current := existing.getD ""
    if current ≠ "" ∧ comparePosition position current ≤ 0 then
      .answer (.advanced current false)
    else .put position

def PositionWork.afterPut : PositionWork → PositionAnswer
  | .ensure initial => .ensured initial
  | .advance position => .advanced position true

/-- The answer after a put that was rejected: `raced` is what the second get returned. -/
def PositionWork.afterReject (existing raced : Option String)
    : PositionWork → PositionAnswer
  | .ensure initial => .ensured (raced.getD initial)
  | .advance position =>
    match raced with
    | some other =>
      if 0 ≤ comparePosition other position then .advanced other false
      else .advanced
        (if existing.getD "" ≠ "" then existing.getD "" else position) false
    | none =>
      .advanced (if existing.getD "" ≠ "" then existing.getD "" else position) false

/-- Where a call is between two of its awaited steps. A peeking call only reads: its
position is empty. Every other call waits for its turn behind the earlier calls of its
worker.
-/
inductive PositionStage where
  | idle
  | peeking
  | queued (worker : Nat) (work : PositionWork)
  | putting (worker : Nat) (work : PositionWork) (existing : Option String)
      (position : String)
  | rereading (worker : Nat) (work : PositionWork) (existing : Option String)
  | answered (answer : PositionAnswer)

-- The system

/-- The row, the positions committed to it so far, the latest first, the queue of each
worker's calls behind `tails`, and the calls.
-/
structure PositionState where
  row : Option Record
  committed : List String
  tail : Nat → List Nat
  call : Nat → PositionStage

def PositionState.goto (state : PositionState) (call : Nat) (stage : PositionStage)
    : PositionState :=
  { state with call := Function.update state.call call stage }

def PositionState.settle (state : PositionState) (call worker : Nat)
    (answer : PositionAnswer)
    : PositionState :=
  { state.goto call (.answered answer) with
    tail := Function.update state.tail worker (state.tail worker).tail }

def PositionState.enqueue (state : PositionState) (call worker : Nat) (work : PositionWork)
    : PositionState :=
  { state.goto call (.queued worker work) with
    tail := Function.update state.tail worker (state.tail worker ++ [call]) }

def PositionState.commit (state : PositionState) (key : ReadPositionKey)
    (position now : String)
    : PositionState :=
  { state with
    row := some (positionRow key position now)
    committed := position :: state.committed }

/-- The awaited steps. A get may throw. A put may land or be dropped, and may resolve or
reject, whether it landed or not.
-/
inductive PositionLabel where
  | advance (call worker : Nat) (table : Bool) (position : String)
  | ensure (call worker : Nat) (table : Bool) (initial : String)
  | read (call : Nat) (readable : Bool)
  | put (call : Nat) (now : String) (landed resolves : Bool)
  | reread (call : Nat) (readable : Bool)

/-- `readRow`: a get that throws is taken for an absent row. -/
def readRow (state : PositionState) (readable : Bool) : Option String :=
  if readable then storedPosition state.row else none

def startAdvance (state : PositionState) (call worker : Nat) (table : Bool)
    (position : String)
    : PositionState :=
  if position = "" then
    if table then state.goto call .peeking
    else state.goto call (.answered (.advanced "" false))
  else if table then state.enqueue call worker (.advance position)
  else state.goto call (.answered (.advanced position false))

def startEnsure (state : PositionState) (call worker : Nat) (table : Bool)
    (initial : String)
    : PositionState :=
  if table then state.enqueue call worker (.ensure initial)
  else state.goto call (.answered (.ensured initial))

def readStep (state : PositionState) (call : Nat) (readable : Bool)
    : Option PositionState :=
  match state.call call with
  | .peeking =>
    some (state.goto call (.answered (.advanced ((readRow state readable).getD "") false)))
  | .queued worker work =>
    if (state.tail worker).head? = some call then
      match work.afterRead (readRow state readable) with
      | .answer answer => some (state.settle call worker answer)
      | .put position =>
        some (state.goto call (.putting worker work (readRow state readable) position))
    else none
  | _ => none

def putStep (key : ReadPositionKey) (state : PositionState) (call : Nat) (now : String)
    (landed resolves : Bool)
    : Option PositionState :=
  match state.call call with
  | .putting worker work existing position =>
    let stored := if landed then state.commit key position now else state
    if resolves then some (stored.settle call worker work.afterPut)
    else some (stored.goto call (.rereading worker work existing))
  | _ => none

def rereadStep (state : PositionState) (call : Nat) (readable : Bool)
    : Option PositionState :=
  match state.call call with
  | .rereading worker work existing =>
    some (state.settle call worker (work.afterReject existing (readRow state readable)))
  | _ => none

def positionStep (key : ReadPositionKey) (state : PositionState)
    : PositionLabel → Option PositionState
  | .advance call worker table position =>
    match state.call call with
    | .idle => some (startAdvance state call worker table position)
    | _ => none
  | .ensure call worker table initial =>
    match state.call call with
    | .idle => some (startEnsure state call worker table initial)
    | _ => none
  | .read call readable => readStep state call readable
  | .put call now landed resolves => putStep key state call now landed resolves
  | .reread call readable => rereadStep state call readable

def readPositions (key : ReadPositionKey) : System PositionState PositionLabel where
  initial state :=
    state.committed = (storedPosition state.row).toList ∧ (∀ worker, state.tail worker = [])
      ∧ ∀ call, state.call call = .idle
  step := positionStep key

end Flair.Catchup
