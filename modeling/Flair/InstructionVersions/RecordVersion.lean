import Flair.Foundations.KeyLedger
import Flair.Foundations.Systems
import Flair.InstructionVersions.VersionRecords

/-! The version history's writers: appends in a transaction of their own or of their caller,
the removal of an appended record, and the undo of a failed write, any number of them at once.
Follows `resources/instruction-version-record.ts`, `resources/skill-version-write.ts` and
`resources/write-journal.ts`.
-/

namespace Flair.InstructionVersions

open KeyLedger LinkedChain Transition

-- Inputs

structure RecordVersionInput where
  subjectType : SubjectType
  subjectId : String
  agentId : String
  key : Option String := none
  kind : VersionKind
  rowId : String
  value : Option String := none
  soulSnapshot : Option String := none
  memoryId : Option String := none
  visibility : Option String := none
  expectedVersion : Option String := none
  previousSubjectId : Option String := none
  previousKey : Option String := none
  previousAgentId : Option String := none
  previousRowId : Option String := none

namespace RecordVersionInput

def subject (input : RecordVersionInput) : Subject where
  subjectType := input.subjectType
  subjectId := input.subjectId

/-- What Soul's `versionInput` and the skill writer build: a Soul subject is its pair's, and a
previous subject comes with its pair.
-/
def callerBuilt (input : RecordVersionInput) : Bool :=
  match input.subjectType with
  | .soul =>
    (input.key.any fun key => input.subjectId = soulSubjectId input.agentId key)
      && (input.previousSubjectId.isNone
        || (input.previousKey.isSome && input.previousAgentId.isSome))
  | .skill => true

def identityChanged (input : RecordVersionInput) : Bool :=
  input.subjectType = .soul && input.previousSubjectId.isSome
    && (input.previousAgentId.getD input.agentId ≠ input.agentId
      || input.previousKey ≠ input.key)

def head (input : RecordVersionInput) (records : List VersionRecord) : Option VersionRecord :=
  match input.subjectType with
  | .soul => readSoulHead records input.agentId (input.key.getD "")
  | .skill => readHead records input.subject

def stale (input : RecordVersionInput) (head : Option VersionRecord) : Bool :=
  input.expectedVersion.any fun expected => head.map VersionRecord.id ≠ some expected

end RecordVersionInput

structure StoredSnapshot where
  json : String
  value : Option String

structure AppendStamp where
  attribution : VersionAttribution
  createdAt : String
  snapshot : Option StoredSnapshot

section Records

variable (sha256 : String → String) (input : RecordVersionInput) (stamp : AppendStamp)

def soulSnapshotOf : Option StoredSnapshot :=
  if input.subjectType = .soul ∧ input.kind ≠ .delete then stamp.snapshot else none

/-- The record an append creates after `head`. -/
def appendedRecord (head : Option VersionRecord) : VersionRecord :=
  let snapshot := soulSnapshotOf input stamp
  let value := (snapshot.map StoredSnapshot.value).getD input.value
  let soulSnapshot := (snapshot.map fun row => some row.json).getD input.soulSnapshot
  let sequence := nextSeq versionLinks head
  VersionRecord.stamp sha256 {
    id := versionId input.subjectType input.subjectId sequence
    subjectType := input.subjectType
    subjectId := input.subjectId
    agentId := input.agentId
    key := input.key
    version := sequence
    kind := input.kind
    rowId := input.rowId
    valueHash := if input.kind = .delete then none else valueDigest sha256 (value.getD "")
    previousVersionHash := head.map VersionRecord.recordHash
    soulSnapshot := if input.kind = .delete then none else soulSnapshot
    memoryId := input.memoryId
    visibility := input.visibility
    attribution := stamp.attribution
    createdAt := stamp.createdAt
    guarded := input.expectedVersion.isSome
    expectedVersion := input.expectedVersion
    recordHash := "" }

def previousPair : String × String :=
  (input.previousAgentId.getD input.agentId, input.previousKey.getD "")

def renamedRecord (oldHead : Option VersionRecord) : VersionRecord :=
  let (agentId, key) := previousPair input
  let previousSubjectId := soulSubjectId agentId key
  let oldSequence := nextSeq versionLinks oldHead
  VersionRecord.stamp sha256 {
    id := versionId input.subjectType previousSubjectId oldSequence
    subjectType := input.subjectType
    subjectId := previousSubjectId
    agentId
    key := input.previousKey
    version := oldSequence
    kind := .delete
    rowId := input.previousRowId.getD input.rowId
    valueHash := none
    previousVersionHash := oldHead.map VersionRecord.recordHash
    soulSnapshot := none
    memoryId := none
    visibility := none
    attribution := stamp.attribution
    createdAt := stamp.createdAt
    guarded := false
    expectedVersion := none
    recordHash := "" }

end Records

structure StagedVersion where
  head : Option VersionRecord
  record : VersionRecord
deriving DecidableEq

def stagedVersions (sha256 : String → String) (records : List VersionRecord)
    (input : RecordVersionInput) (head : Option VersionRecord) (stamp : AppendStamp)
    : List StagedVersion :=
  let appended : StagedVersion := { head, record := appendedRecord sha256 input stamp head }
  if input.identityChanged then
    let (agentId, key) := previousPair input
    let oldHead := readSoulHead records agentId key
    [{ head := oldHead, record := renamedRecord sha256 input stamp oldHead }, appended]
  else [appended]

-- Commits

structure JournalEntry where
  before : Option VersionRecord
  after : VersionRecord
deriving DecidableEq

/-- A commit: each staged record is stored, unless the store drops its write. -/
def commitStaged (dropped : List String) (records : List VersionRecord)
    : List StagedVersion → List VersionRecord × List JournalEntry
  | [] => (records, [])
  | staged :: rest =>
    if staged.record.id ∈ dropped then commitStaged dropped records rest
    else
      let before := records.find? fun record => record.id = staged.record.id
      let (final, journal) := commitStaged dropped (putRecord records staged.record) rest
      (final, { before, after := staged.record } :: journal)

def hasSuccessor (records : List VersionRecord) (record : VersionRecord) : Bool :=
  records.any fun other => other.subject = record.subject ∧ record.version < other.version

-- One writer

/-- Where a writer is between two of its awaited steps: an append up to its commit or, joined,
up to its caller's commit; then the removal of a record or the undo of its own write.
-/
inductive WriterStage where
  | idle
  | waiting (subjectType : SubjectType) (joined : Bool)
  | locked (subjectType : SubjectType) (joined : Bool)
  | headRead (joined : Bool) (input : RecordVersionInput) (head : Option VersionRecord)
  | staged (subjectType : SubjectType) (joined : Bool) (staged : List StagedVersion)
  | pending (staged : List StagedVersion)
  | appended (subjectType : SubjectType) (journal : List JournalEntry)
  | awaitingRemoval (subject : Subject) (recordId : String) (journal : List JournalEntry)
  | removalLocked (subject : Subject) (recordId : String) (journal : List JournalEntry)
  | removalStaged (subject : Subject) (recordId : String) (journal : List JournalEntry)
  | removalCommitted (subject : Subject) (journal : List JournalEntry)
  | awaitingUndo (entry : JournalEntry)
  | undoLocked (entry : JournalEntry)
  | undoing (entry : JournalEntry)
  | undone (entry : JournalEntry)
  | ended

inductive WriterLabel where
  | start (subjectType : SubjectType) (joins : Bool)
  | lockAppend (taken : Bool)
  | readHead (input : RecordVersionInput)
  | stageAppend (stamp : AppendStamp)
  | fail
  | commitOwned (dropped : List String)
  | leaveToCaller
  | commitJoined (dropped : List String)
  | abortJoined
  | remove (subject : Subject) (recordId : String)
  | lockRemoval (taken : Bool)
  | readRemoval
  | commitRemoval (dropped : Bool)
  | endRemoval
  | undo
  | lockUndo (taken : Bool)
  | checkUndo
  | undoEntry (dropped : Bool)
  | endUndo
  | finish

/-- What a step leaves: the rows, the locks, the writer's stage, and the removed record if it
had a successor.
-/
structure WriterMove where
  records : List VersionRecord
  lock : Ledger SubjectType Nat
  stage : WriterStage
  removedInside : Option VersionRecord := none

def WriterMove.goto (records : List VersionRecord) (lock : Ledger SubjectType Nat)
    (stage : WriterStage)
    : WriterMove where
  records
  lock
  stage

section Steps

variable (sha256 : String → String) (records : List VersionRecord)
  (lock : Ledger SubjectType Nat) (writer : Nat)

/-- `withKeyLock`: the lock is taken, or the attempts run out. -/
def tryLockStep (key : SubjectType) (locked refused : WriterStage) (taken : Bool)
    : Option WriterMove :=
  if taken then (lock.tryLock writer key).map fun lock => .goto records lock locked
  else some (.goto records lock refused)

def startStep (subjectType : SubjectType) (joins : Bool) : WriterStage → Option WriterMove
  | .idle =>
    if joins ∧ subjectType ≠ .skill then none
    else some (.goto records lock (.waiting subjectType joins))
  | _ => none

def lockAppendStep (taken : Bool) : WriterStage → Option WriterMove
  | .waiting subjectType joined =>
    tryLockStep records lock writer subjectType (.locked subjectType joined) .ended taken
  | _ => none

def readHeadStep (input : RecordVersionInput) : WriterStage → Option WriterMove
  | .locked subjectType joined =>
    if input.subjectType = subjectType ∧ input.callerBuilt = true then
      let head := input.head records
      if input.stale head then
        some (.goto records (lock.unlock writer subjectType) .ended)
      else some (.goto records lock (.headRead joined input head))
    else none
  | _ => none

def stageAppendStep (stamp : AppendStamp) : WriterStage → Option WriterMove
  | .headRead joined input head =>
    some (.goto records lock
      (.staged input.subjectType joined (stagedVersions sha256 records input head stamp)))
  | _ => none

def WriterStage.held : WriterStage → Option SubjectType
  | .locked subjectType _ | .staged subjectType _ _ => some subjectType
  | .headRead _ input _ => some input.subjectType
  | .removalLocked subject _ _ | .removalStaged subject _ _ | .removalCommitted subject _ =>
    some subject.subjectType
  | .undoLocked entry | .undoing entry | .undone entry => some entry.after.subjectType
  | _ => none

/-- A refusal, a failed mutation or a throw before the commit: nothing is written. -/
def failStep : WriterStage → Option WriterMove
  | .locked subjectType _ | .staged subjectType _ _ =>
    some (.goto records (lock.unlock writer subjectType) .ended)
  | .headRead _ input _ =>
    some (.goto records (lock.unlock writer input.subjectType) .ended)
  | .removalLocked subject _ journal | .removalStaged subject _ journal =>
    some (.goto records (lock.unlock writer subject.subjectType)
      (.appended subject.subjectType journal))
  | .undoLocked entry | .undoing entry =>
    some (.goto records (lock.unlock writer entry.after.subjectType) .ended)
  | _ => none

def commitOwnedStep (dropped : List String) : WriterStage → Option WriterMove
  | .staged subjectType false staged =>
    let (final, journal) := commitStaged dropped records staged
    some (.goto final (lock.unlock writer subjectType) (.appended subjectType journal))
  | _ => none

/-- A joined append returns with its lock released and its transaction still open. -/
def leaveToCallerStep : WriterStage → Option WriterMove
  | .staged subjectType true staged =>
    some (.goto records (lock.unlock writer subjectType) (.pending staged))
  | _ => none

def commitJoinedStep (dropped : List String) : WriterStage → Option WriterMove
  | .pending staged => some (.goto (commitStaged dropped records staged).1 lock .ended)
  | _ => none

def abortJoinedStep : WriterStage → Option WriterMove
  | .pending _ => some (.goto records lock .ended)
  | _ => none

/-- `removeAppendedVersion` -/
def removeStep (subject : Subject) (recordId : String) : WriterStage → Option WriterMove
  | .appended _ journal => some (.goto records lock (.awaitingRemoval subject recordId journal))
  | _ => none

def lockRemovalStep (taken : Bool) : WriterStage → Option WriterMove
  | .awaitingRemoval subject recordId journal =>
    tryLockStep records lock writer subject.subjectType
      (.removalLocked subject recordId journal) (.appended subject.subjectType journal) taken
  | _ => none

def readRemovalStep : WriterStage → Option WriterMove
  | .removalLocked subject recordId journal =>
    match readHead records subject with
    | none => some (.goto records lock (.removalCommitted subject journal))
    | some head =>
      if head.id ≠ recordId then
        some (.goto records (lock.unlock writer subject.subjectType)
          (.appended subject.subjectType journal))
      else some (.goto records lock (.removalStaged subject recordId journal))
  | _ => none

/-- The delete of the row stored under the id now, unless the store drops it. -/
def deleteMove (recordId : String) (dropped : Bool) (stage : WriterStage) : WriterMove :=
  if dropped then .goto records lock stage
  else
    let removed := records.find? fun record => record.id = recordId
    { records := deleteRecord records recordId
      lock
      stage
      removedInside := removed.filter (hasSuccessor records) }

def commitRemovalStep (dropped : Bool) : WriterStage → Option WriterMove
  | .removalStaged subject recordId journal =>
    some (deleteMove records lock recordId dropped (.removalCommitted subject journal))
  | _ => none

def endRemovalStep : WriterStage → Option WriterMove
  | .removalCommitted subject journal =>
    some (.goto records (lock.unlock writer subject.subjectType)
      (.appended subject.subjectType journal))
  | _ => none

/-- `compensateUnlandedSkillUpdate`, for a skill write whose version record was applied. -/
def undoStep : WriterStage → Option WriterMove
  | .appended .skill [entry] => some (.goto records lock (.awaitingUndo entry))
  | _ => none

def lockUndoStep (taken : Bool) : WriterStage → Option WriterMove
  | .awaitingUndo entry =>
    tryLockStep records lock writer entry.after.subjectType (.undoLocked entry) .ended taken
  | _ => none

def checkUndoStep : WriterStage → Option WriterMove
  | .undoLocked entry =>
    match readHead records entry.after.subject with
    | some head =>
      if head.id ≠ entry.after.id then
        some (.goto records (lock.unlock writer entry.after.subjectType) .ended)
      else some (.goto records lock (.undoing entry))
    | none => some (.goto records lock (.undoing entry))
  | _ => none

/-- The entry's inverse, if the row is still the one written. -/
def undoEntryStep (dropped : Bool) : WriterStage → Option WriterMove
  | .undoing entry =>
    if records.find? (fun record => record.id = entry.after.id) = some entry.after then
      match entry.before with
      | none => some (deleteMove records lock entry.after.id dropped (.undone entry))
      | some before =>
        some (.goto (if dropped then records else putRecord records before) lock
          (.undone entry))
    else some (.goto records lock (.undone entry))
  | _ => none

def endUndoStep : WriterStage → Option WriterMove
  | .undone entry =>
    some (.goto records (lock.unlock writer entry.after.subjectType) .ended)
  | _ => none

def finishStep : WriterStage → Option WriterMove
  | .appended _ _ => some (.goto records lock .ended)
  | _ => none

def writerStep (stage : WriterStage) : WriterLabel → Option WriterMove
  | .start subjectType joins => startStep records lock subjectType joins stage
  | .lockAppend taken => lockAppendStep records lock writer taken stage
  | .readHead input => readHeadStep records lock writer input stage
  | .stageAppend stamp => stageAppendStep sha256 records lock stamp stage
  | .fail => failStep records lock writer stage
  | .commitOwned dropped => commitOwnedStep records lock writer dropped stage
  | .leaveToCaller => leaveToCallerStep records lock writer stage
  | .commitJoined dropped => commitJoinedStep records lock dropped stage
  | .abortJoined => abortJoinedStep records lock stage
  | .remove subject recordId => removeStep records lock subject recordId stage
  | .lockRemoval taken => lockRemovalStep records lock writer taken stage
  | .readRemoval => readRemovalStep records lock writer stage
  | .commitRemoval dropped => commitRemovalStep records lock dropped stage
  | .endRemoval => endRemovalStep records lock writer stage
  | .undo => undoStep records lock stage
  | .lockUndo taken => lockUndoStep records lock writer taken stage
  | .checkUndo => checkUndoStep records lock writer stage
  | .undoEntry dropped => undoEntryStep records lock dropped stage
  | .endUndo => endUndoStep records lock writer stage
  | .finish => finishStep records lock stage

end Steps

-- The system

/-- The table, the lock of each subject type, the writers, and the records removed while a
later one of their subject was stored.
-/
structure HistoryState where
  records : List VersionRecord
  lock : Ledger SubjectType Nat
  stage : Nat → WriterStage
  removedInside : List VersionRecord

structure HistoryLabel where
  writer : Nat
  act : WriterLabel

def HistoryState.apply (state : HistoryState) (writer : Nat) (move : WriterMove)
    : HistoryState where
  records := move.records
  lock := move.lock
  stage := Function.update state.stage writer move.stage
  removedInside := move.removedInside.toList ++ state.removedInside

def historyStep (sha256 : String → String) (state : HistoryState) (label : HistoryLabel)
    : Option HistoryState :=
  (writerStep sha256 state.records state.lock label.writer (state.stage label.writer)
    label.act).map (state.apply label.writer)

def WriterStage.headsHeld : WriterStage → List Subject
  | .headRead _ input _ => [input.subject]
  | .staged _ _ entries => entries.map fun entry => entry.record.subject
  | .removalStaged subject _ _ => [subject]
  | .undoing entry => [entry.after.subject]
  | _ => []

def HeadsCurrent (state : HistoryState) (writer : Nat) (staged : List StagedVersion) : Prop :=
  ∀ entry ∈ staged, readHead state.records entry.record.subject = entry.head
    ∧ ∀ other, other ≠ writer → entry.record.subject ∉ (state.stage other).headsHeld

/-- A caller's transaction commits while the heads its append read are current. -/
def CommitsCurrent : Guard HistoryState HistoryLabel
  | state, { writer, act := .commitJoined _ } =>
    match state.stage writer with
    | .pending staged => HeadsCurrent state writer staged
    | _ => True
  | _, _ => True

end Flair.InstructionVersions
