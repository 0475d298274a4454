import Flair.Foundations.InsertionMap
import Flair.Migrations.StateEntries

/-! A run of one migration: the ladder before its first batch, what its batches leave, and the
gate it has to pass to be recorded as successful. Follows `resources/migrations/runner.ts` and
`resources/migrations/risk-policy.ts`.
-/

namespace Flair.Migrations

-- Migrations

/-- What the runner reads of a `Migration`: its optional methods by whether it has them. -/
structure RegisteredMigration where
  id : String
  riskClass : RiskClass
  alwaysDetect : Bool
  hasRecheckPending : Bool
  hasCheckUnconfirmed : Bool
deriving DecidableEq

/-- `register` refuses an id it already has. -/
structure MigrationRegistry where
  list : List RegisteredMigration
  distinct : (list.map RegisteredMigration.id).Nodup

inductive GateStrictness where
  | countMarker
  | countFullEnvelope
  | countOldRowEnvelopeNewRowPresence
deriving DecidableEq

/-- `postureFor(riskClass).gate` -/
def postureGate : RiskClass → GateStrictness
  | .derivedOnly => .countMarker
  | .schemaAdditive => .countFullEnvelope
  | .contentTransform => .countOldRowEnvelopeNewRowPresence

-- The ladder

/-- What the ladder meets: the pending count, the reason each space check refuses with, and the
error of the snapshot and of the export that stands in for it.
-/
structure PreflightReads where
  countPending : Except String Nat
  space : Option String
  spaceAfterPrune : Option String
  snapshot : Option String
  contentOnlyExport : Option String

def preflight (reads : PreflightReads) : Except (String × Nat) Nat :=
  match reads.countPending with
  | .error message => .error ("countPending() threw: " ++ message, 0)
  | .ok initialRemaining =>
    match reads.space, reads.spaceAfterPrune with
    | some _, some reason => .error ("blocked on disk: " ++ reason, initialRemaining)
    | _, _ =>
      match reads.snapshot, reads.contentOnlyExport with
      | some snapErr, some expErr =>
        .error ("snapshot failed (" ++ snapErr
          ++ ") and the content-only export fallback also failed (" ++ expErr ++ ")",
          initialRemaining)
      | _, _ => .ok initialRemaining

-- Batches

structure BatchReport where
  processed : Nat
  touchedIds : List String
  unconfirmedIds : List String
  oldRowSourceHashes : List (String × String)
  newRowIds : List String
deriving DecidableEq

structure Run where
  migration : RegisteredMigration
  initialRemaining : Nat
  outcomes : Outcomes
  unconfirmedUnlisted : Nat
  oldRowHashes : InsertionMap String String
  newRowIds : List String
deriving DecidableEq

namespace Run

def start (migration : RegisteredMigration) (initialRemaining : Nat)
    (carried : Option UnconfirmedRecord)
    : Run where
  migration
  initialRemaining
  outcomes := { rowsDone := 0, unconfirmed := (recordOf carried).ids.foldl addId [] }
  unconfirmedUnlisted := (recordOf carried).unlisted
  oldRowHashes := []
  newRowIds := []

/-- `unconfirmedRecord()` -/
def unconfirmedRecord (run : Run) : UnconfirmedRecord where
  ids := run.outcomes.unconfirmed
  count := run.outcomes.unconfirmed.length + run.unconfirmedUnlisted

def note (run : Run) (report : BatchReport) : Run :=
  { run with
    outcomes := { run.outcomes.note report.touchedIds report.unconfirmedIds with
      rowsDone := run.outcomes.rowsDone + report.processed }
    oldRowHashes := report.oldRowSourceHashes.foldl (fun map entry => map.set entry.1 entry.2)
      run.oldRowHashes
    newRowIds := run.newRowIds ++ report.newRowIds }

def noteError (run : Run) (failure : BatchError) : Run :=
  { run with outcomes := run.outcomes.noteError failure }

def rowsRemaining (run : Run) : Nat := run.initialRemaining - run.outcomes.rowsDone

end Run

-- The gate

def gateSafetyNetMaxRecheck : Nat := 50

/-- What the gate reads once the batches have ended. `recheckPending` answers how many rows it
sampled and how many of these were false positives; a row is read by its `table:id` key.
-/
structure GateReads where
  countPending : Except String Nat
  recheckPending : Except String (Nat × Nat)
  postHash : Except String String
  rowHash : String → Except String (Option String)

def countOk (migration : RegisteredMigration) (reads : GateReads) (finalRemaining : Nat) : Bool :=
  finalRemaining = 0
    || finalRemaining ≤ gateSafetyNetMaxRecheck && migration.hasRecheckPending
      && match reads.recheckPending with
        | .ok (sampled, falsePositives) =>
          sampled = finalRemaining && falsePositives = sampled
        | .error _ => false

def oldRowsMatch (reads : GateReads) (oldRowHashes : InsertionMap String String) : Bool :=
  oldRowHashes.all fun entry =>
    match reads.rowHash entry.1 with
    | .ok currentHash => currentHash = some entry.2
    | .error _ => false

inductive GateVerdict where
  | passed
  | halted (reason : String) (rowsRemaining : Nat)
deriving DecidableEq

def gateFailed (finalRemaining : Nat) (hashEnvelopeMatch : Bool) : GateVerdict :=
  .halted
    ("completion gate failed: rowsRemaining=" ++ toString finalRemaining
      ++ if hashEnvelopeMatch then "" else ", hash envelope mismatch")
    finalRemaining

def completionGate (run : Run) (corpusHash : String) (reads : GateReads) : GateVerdict :=
  match reads.countPending with
  | .error message => .halted ("post-batch countPending() threw: " ++ message) 0
  | .ok finalRemaining =>
    if countOk run.migration reads finalRemaining then
      match postureGate run.migration.riskClass with
      | .countMarker => .passed
      | .countFullEnvelope =>
        match reads.postHash with
        | .error message => .halted ("post-hash computation failed: " ++ message) finalRemaining
        | .ok postHash =>
          if postHash = corpusHash then .passed else gateFailed finalRemaining false
      | .countOldRowEnvelopeNewRowPresence =>
        if oldRowsMatch reads run.oldRowHashes
            && run.newRowIds.length = run.oldRowHashes.length
        then .passed
        else gateFailed finalRemaining false
    else gateFailed finalRemaining true

-- What a run's record covers

theorem mem_addId {ids : List String} {id other : String}
    : other ∈ addId ids id ↔ other ∈ ids ∨ other = id := by
  unfold addId
  split
  · rename_i present
    constructor
    · exact .inl
    · rintro (member | rfl)
      · exact member
      · exact present
  · simp

theorem mem_foldl_addId {more ids : List String} {id : String}
    : id ∈ more.foldl addId ids ↔ id ∈ ids ∨ id ∈ more := by
  induction more generalizing ids with
  | nil => simp
  | cons first rest ih => rw [List.foldl_cons, ih, mem_addId, List.mem_cons, or_assoc]

namespace Run

variable {run : Run} {owed : Finset String}

theorem unconfirmedRecord_eq (run : Run)
    : run.unconfirmedRecord.unlisted = run.unconfirmedUnlisted := by
  simp [unconfirmedRecord, Tallying.Tally.unlisted]

/-- The ids a batch touches leave what is owed, then the ones it reports join it. -/
def owedAfter (owed : Finset String) (touchedIds unconfirmedIds : List String) : Finset String :=
  (owed \ touchedIds.toFinset) ∪ unconfirmedIds.toFinset

theorem covers_outcomes {next : Run} {touchedIds unconfirmedIds : List String}
    (h : run.unconfirmedRecord.Covers owed)
    (ids : next.outcomes.unconfirmed
      = (run.outcomes.note touchedIds unconfirmedIds).unconfirmed)
    (unlisted : next.unconfirmedUnlisted = run.unconfirmedUnlisted)
    : next.unconfirmedRecord.Covers (owedAfter owed touchedIds unconfirmedIds) := by
  have shape : next.unconfirmedRecord
      = run.unconfirmedRecord.relist next.outcomes.unconfirmed := by
    rw [Tallying.Tally.relist, unconfirmedRecord_eq, unconfirmedRecord, unlisted]
  rw [shape, ids]
  refine h.relist ?_
  intro id member
  rw [Outcomes.note, mem_foldl_addId, List.mem_filter]
  rcases Finset.mem_union.mp member with before | reported
  · obtain ⟨owes, untouched⟩ := Finset.mem_sdiff.mp before
    rw [List.mem_toFinset] at untouched
    by_cases listed : id ∈ run.outcomes.unconfirmed
    · exact .inl (.inl ⟨listed, decide_eq_true untouched⟩)
    · exact .inr ⟨owes, listed⟩
  · exact .inl (.inr (List.mem_toFinset.mp reported))

theorem covers_start {carried : Option UnconfirmedRecord} (migration : RegisteredMigration)
    (initialRemaining : Nat) (h : (recordOf carried).Covers owed)
    : (start migration initialRemaining carried).unconfirmedRecord.Covers owed := by
  have shape : (start migration initialRemaining carried).unconfirmedRecord
      = (recordOf carried).relist ((recordOf carried).ids.foldl addId []) := rfl
  rw [shape]
  refine h.relist ?_
  intro id owes
  by_cases listed : id ∈ (recordOf carried).ids
  · exact .inl (mem_foldl_addId.mpr (.inr listed))
  · exact .inr ⟨owes, listed⟩

theorem covers_note (report : BatchReport) (h : run.unconfirmedRecord.Covers owed)
    : (run.note report).unconfirmedRecord.Covers
        (owedAfter owed report.touchedIds report.unconfirmedIds) :=
  covers_outcomes h rfl rfl

def owedAfterError (owed : Finset String) : BatchError → Finset String
  | .outcome touchedIds unconfirmedIds _ => owedAfter owed touchedIds unconfirmedIds
  | .other _ => owed

theorem covers_noteError (failure : BatchError) (h : run.unconfirmedRecord.Covers owed)
    : (run.noteError failure).unconfirmedRecord.Covers (owedAfterError owed failure) := by
  cases failure with
  | outcome touchedIds unconfirmedIds message => exact covers_outcomes h rfl rfl
  | other message => exact h

end Run

end Flair.Migrations
