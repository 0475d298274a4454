import Flair.Migrations.MemoryRows

/-! The runner's batch loop: it takes batches until one processes nothing, keeps what they
report and halts on the first that throws. Follows `resources/migrations/runner.ts` and
`resources/migrations/risk-policy.ts`.
-/

namespace Flair.Migrations

inductive RiskClass where
  | derivedOnly
  | schemaAdditive
  | contentTransform
deriving DecidableEq

/-- `postureFor(riskClass).batchSize` -/
def postureBatchSize : RiskClass → Nat
  | .derivedOnly => 50
  | .schemaAdditive => 50
  | .contentTransform => 10

theorem postureBatchSize_pos (risk : RiskClass) : 0 < postureBatchSize risk := by
  cases risk <;> decide

/-- `set.add(id)` on a set in insertion order. -/
def addId (ids : List String) (id : String) : List String := if id ∈ ids then ids else ids ++ [id]

/-- What a run's batches have reported so far. -/
structure Outcomes where
  rowsDone : Nat
  unconfirmed : List String
deriving DecidableEq

/-- A batch's touched ids leave the unconfirmed set, then its unconfirmed ids join it. -/
def Outcomes.note (outcomes : Outcomes) (touchedIds unconfirmedIds : List String) : Outcomes where
  rowsDone := outcomes.rowsDone + touchedIds.length
  unconfirmed :=
    unconfirmedIds.foldl addId (outcomes.unconfirmed.filter fun id => decide (id ∉ touchedIds))

def Outcomes.noteError (outcomes : Outcomes) : BatchError → Outcomes
  | .outcome touchedIds unconfirmedIds _ => outcomes.note touchedIds unconfirmedIds
  | .other _ => outcomes

inductive LoopEnd where
  | ended
  | halted (reason : String)
deriving DecidableEq

structure LoopState where
  table : MemoryTable
  outcomes : Outcomes

/-- The batch loop of a migration's `run`; `none` when the fuel runs out. -/
def batchLoop (run : Nat → MemoryTable → MemoryTable × Except BatchError RunBatchResult)
    (batchSize : Nat)
    : Nat → LoopState → Option (LoopState × LoopEnd)
  | 0, _ => none
  | fuel + 1, state =>
    match run batchSize state.table with
    | (table, .error failure) =>
      some ({ table, outcomes := state.outcomes.noteError failure },
        .halted ("run() threw mid-batch: " ++ failure.message))
    | (table, .ok result) =>
      let next : LoopState :=
        { table, outcomes := state.outcomes.note result.touchedIds result.unconfirmedIds }
      if result.processed = 0 then some (next, .ended)
      else batchLoop run batchSize fuel next

end Flair.Migrations
