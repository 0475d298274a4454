import Flair.Foundations.Systems
import Flair.Migrations.CompletionGate

/-! Migration cycles as a transition system over the state file. Between cycles only the file
is kept, so a restart there changes nothing; the lock admits one cycle at a time. Follows
`runMigrationCycle`, `runOneMigration` and `haltMigration` of
`resources/migrations/runner.ts`.
-/

namespace Flair.Migrations

open Transition

-- States

abbrev Candidate := RegisteredMigration × Option UnconfirmedRecord

inductive Phase where
  | idle
  /-- The loop over the registry, with the state file as the cycle read it. -/
  | detecting (state : MigrationStateFile) (rest : List RegisteredMigration)
      (candidates : List Candidate)
  | running (corpusHash : String) (envelopeStale : Bool) (rest : List Candidate)
  | batching (corpusHash : String) (envelopeStale : Bool) (run : Run) (rest : List Candidate)
  | completing (corpusHash : String) (envelopeStale : Bool) (run : Run) (rest : List Candidate)

inductive WriteBasis where
  /-- `haltMigration` -/
  | halt
  /-- The batches ended and the gate was evaluated. -/
  | completion (run : Run) (corpusHash : String) (reads : GateReads)
  /-- The re-verified record counts nothing and `detect()` finds no pending work. -/
  | emptied (record : UnconfirmedRecord) (detected : Option Bool)
  /-- Only the unconfirmed record of the entry changes. -/
  | revised

structure Written where
  id : String
  replaced : Option MigrationStateEntry
  entry : MigrationStateEntry
  basis : WriteBasis
  file : MigrationStateFile
  owed : String → Finset String

/-- `owed` are each migration's rows that a batch reported as unconfirmed and that no later
batch has verified and no later re-read has cleared; `writes` are the durable states so far.
-/
structure State where
  file : MigrationStateFile
  runningVersion : String
  phase : Phase
  owed : String → Finset String
  writes : List Written

def State.record (state : State) (io : StateIO) (id : String) (entry : MigrationStateEntry)
    (basis : WriteBasis)
    : State :=
  let file := writeMigrationStateEntry io state.file id entry
  { state with
    file
    writes :=
      if io.landed then
        state.writes
          ++ [{ id, replaced := state.file id, entry, basis, file, owed := state.owed }]
      else state.writes }

-- Steps

inductive Label where
  /-- A cycle takes the lock and reads the state file. -/
  | begin (registry : MigrationRegistry) (runningVersion : String) (readable : Bool)
  /-- The next registered migration is re-verified and asked for pending work; `none` when
  `detect()` throws.
  -/
  | detect (check : String → UnconfirmedVerdict) (detected : Option Bool) (now : String)
      (io : StateIO)
  /-- The corpus is hashed at the start of the cycle; `none` when that fails. -/
  | preHash (corpusHash : Option String)
  /-- The next candidate is taken through the ladder. -/
  | enter (rebaselined : Option String) (reads : PreflightReads) (io : StateIO)
  /-- A batch returns; the heartbeat or the pause after it may throw. -/
  | batch (report : BatchReport) (failure : Option String) (io : StateIO)
  | batchThrows (failure : BatchError) (io : StateIO)
  | complete (reads : GateReads) (endedAt : String) (io : StateIO)
  /-- An error outside the batches escapes the cycle. -/
  | escape

def haltedEntry (reason : String) (rowsProcessed rowsRemaining : Nat)
    (unconfirmed : Option UnconfirmedRecord)
    : MigrationStateEntry where
  completedAtVersion := none
  completedAt := none
  lastOutcome := .halted
  reason := some reason
  rowsProcessed := some rowsProcessed
  rowsRemaining := some rowsRemaining
  rowsUnconfirmed := (unconfirmedState unconfirmed).1
  unconfirmedIds := (unconfirmedState unconfirmed).2

def successEntry (runningVersion completedAt : String) (rowsProcessed : Nat)
    (unconfirmed : Option UnconfirmedRecord)
    : MigrationStateEntry where
  completedAtVersion := some runningVersion
  completedAt := some completedAt
  lastOutcome := .success
  reason := none
  rowsProcessed := some rowsProcessed
  rowsRemaining := some 0
  rowsUnconfirmed := (unconfirmedState unconfirmed).1
  unconfirmedIds := (unconfirmedState unconfirmed).2

def haltMigration (state : State) (io : StateIO) (id reason : String)
    (rowsDone rowsRemaining : Nat) (unconfirmed : Option UnconfirmedRecord)
    : State :=
  state.record io id (haltedEntry reason rowsDone rowsRemaining unconfirmed) .halt

/-- `migration.checkUnconfirmed`, when the migration has it. -/
def checkOf (migration : RegisteredMigration) (check : String → UnconfirmedVerdict)
    : Option (String → UnconfirmedVerdict) :=
  if migration.hasCheckUnconfirmed then some check else none

def State.clear (state : State) (id : String) (cleared : List String) : State :=
  { state with owed := Function.update state.owed id (state.owed id \ cleared.toFinset) }

def State.revise (state : State) (io : StateIO) (id : String) (entry : Option MigrationStateEntry)
    (record : Option UnconfirmedRecord)
    : State :=
  match entry with
  | some before =>
    if record.isSome && recordChanged before (record.filter fun record => 0 < record.count) then
      state.record io id (withUnconfirmedRecord before record) .revised
    else state
  | none => state

/-- One turn of the loop over the registry: the state it leaves, and whether the migration is a
candidate.
-/
def detectStep (state : State) (read : MigrationStateFile) (migration : RegisteredMigration)
    (check : String → UnconfirmedVerdict) (detected : Option Bool) (now : String) (io : StateIO)
    : State × Bool :=
  let entry := read migration.id
  let record := reverifyUnconfirmed (checkOf migration check) entry
  let survived := record.filter fun record => 0 < record.count
  let state := state.clear migration.id (clearedIds (checkOf migration check) entry)
  if isShortCircuited read migration.id state.runningVersion && !migration.alwaysDetect then
    (state.revise io migration.id entry record, false)
  else
    match detected with
    | none => (state, false)
    | some true => (state, true)
    | some false =>
      match survived, entry, record with
      | some _, _, _ => (state.revise io migration.id entry survived, false)
      | none, some before, some emptied =>
        (state.record io migration.id
          (successEntry state.runningVersion now (before.rowsProcessed.getD 0) none)
          (.emptied emptied detected), false)
      | none, _, _ => (state, false)

def State.proceed (state : State) (corpusHash : String) (envelopeStale : Bool)
    (rest : List Candidate)
    : State :=
  { state with phase := if rest.isEmpty then .idle else .running corpusHash envelopeStale rest }

/-- The corpus hash a candidate is gated by, and whether it is stale; `none` when it had to be
computed again and that failed.
-/
def rebaseline (migration : RegisteredMigration) (corpusHash : String) (envelopeStale : Bool)
    (rebaselined : Option String)
    : Option (String × Bool) :=
  if envelopeStale && postureGate migration.riskClass = .countFullEnvelope then
    rebaselined.map fun fresh => (fresh, false)
  else some (corpusHash, envelopeStale)

def enterStep (state : State) (corpusHash : String) (envelopeStale : Bool)
    (candidate : Candidate) (rest : List Candidate) (rebaselined : Option String)
    (reads : PreflightReads) (io : StateIO)
    : State :=
  let (migration, carried) := candidate
  match rebaseline migration corpusHash envelopeStale rebaselined with
  | none => state.proceed corpusHash envelopeStale rest
  | some (corpusHash, envelopeStale) =>
    match preflight reads with
    | .error (reason, rowsRemaining) =>
      (haltMigration state io migration.id reason 0 rowsRemaining carried).proceed
        corpusHash envelopeStale rest
    | .ok initialRemaining =>
      { state with
        phase := .batching corpusHash envelopeStale
          (Run.start migration initialRemaining carried) rest }

def haltRun (state : State) (corpusHash : String) (rest : List Candidate) (run : Run)
    (message : String) (io : StateIO)
    : State :=
  (haltMigration state io run.migration.id ("run() threw mid-batch: " ++ message)
    run.outcomes.rowsDone run.rowsRemaining (some run.unconfirmedRecord)).proceed
    corpusHash true rest

def batchStep (state : State) (corpusHash : String) (envelopeStale : Bool) (run : Run)
    (rest : List Candidate) (report : BatchReport) (failure : Option String) (io : StateIO)
    : State :=
  let id := run.migration.id
  let run := run.note report
  let state :=
    { state with
      owed := Function.update state.owed id
        (Run.owedAfter (state.owed id) report.touchedIds report.unconfirmedIds) }
  match failure with
  | some message => haltRun state corpusHash rest run message io
  | none =>
    if report.processed = 0 then
      { state with phase := .completing corpusHash envelopeStale run rest }
    else { state with phase := .batching corpusHash envelopeStale run rest }

def throwStep (state : State) (corpusHash : String) (run : Run) (rest : List Candidate)
    (failure : BatchError) (io : StateIO)
    : State :=
  let id := run.migration.id
  let state :=
    { state with
      owed := Function.update state.owed id (Run.owedAfterError (state.owed id) failure) }
  haltRun state corpusHash rest (run.noteError failure) failure.message io

def completeStep (state : State) (corpusHash : String) (envelopeStale : Bool) (run : Run)
    (rest : List Candidate) (reads : GateReads) (endedAt : String) (io : StateIO)
    : State :=
  let id := run.migration.id
  let wroteRows := envelopeStale || 0 < run.outcomes.rowsDone
  match completionGate run corpusHash reads with
  | .halted reason rowsRemaining =>
    (haltMigration state io id reason run.outcomes.rowsDone rowsRemaining
      (some run.unconfirmedRecord)).proceed corpusHash wroteRows rest
  | .passed =>
    (state.record io id
      (successEntry state.runningVersion endedAt run.outcomes.rowsDone
        (some run.unconfirmedRecord))
      (.completion run corpusHash reads)).proceed corpusHash wroteRows rest

def step (state : State) (label : Label) : Option State :=
  match state.phase, label with
  | .idle, .begin registry runningVersion readable =>
    some { state with
      runningVersion
      phase := .detecting (readMigrationState readable state.file) registry.list [] }
  | .detecting read (migration :: rest) candidates, .detect check detected now io =>
    let record := reverifyUnconfirmed (checkOf migration check) (read migration.id)
    let (next, pending) := detectStep state read migration check detected now io
    some { next with
      phase := .detecting read rest
        (if pending then candidates ++ [(migration, record)] else candidates) }
  | .detecting _ [] candidates, .preHash corpusHash =>
    match corpusHash with
    | none => some { state with phase := .idle }
    | some corpusHash => some (state.proceed corpusHash false candidates)
  | .running corpusHash envelopeStale (candidate :: rest), .enter rebaselined reads io =>
    some (enterStep state corpusHash envelopeStale candidate rest rebaselined reads io)
  | .batching corpusHash envelopeStale run rest, .batch report failure io =>
    some (batchStep state corpusHash envelopeStale run rest report failure io)
  | .batching corpusHash _ run rest, .batchThrows failure io =>
    some (throwStep state corpusHash run rest failure io)
  | .completing corpusHash envelopeStale run rest, .complete reads endedAt io =>
    some (completeStep state corpusHash envelopeStale run rest reads endedAt io)
  | .detecting .., .escape | .running .., .escape => some { state with phase := .idle }
  | _, _ => none

def cycles : System State Label where
  initial state := state.phase = .idle ∧ (∀ id, state.owed id = ∅) ∧ state.writes = []
  step := step

def StateIO.intact (io : StateIO) : Bool := io.readable && io.landed

def Label.intact : Label → Bool
  | .begin _ _ readable => readable
  | .detect _ _ _ io | .enter _ _ io | .batch _ _ io | .batchThrows _ io | .complete _ _ io =>
    io.intact
  | .preHash _ | .escape => true

end Flair.Migrations
