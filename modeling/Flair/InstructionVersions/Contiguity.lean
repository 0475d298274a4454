import Flair.InstructionVersions.RecordVersion

/-! Contiguous version chains over every run in which a caller's transaction commits while the
heads its append read are current.
-/

namespace Flair.InstructionVersions

open KeyLedger LinkedChain Transition

variable {sha256 : String → String} {records : List VersionRecord}

-- What an append stages

structure Staging (staged : List StagedVersion) : Prop where
  follows : ∀ entry ∈ staged, Follows entry.head entry.record
  subjects : (staged.map fun entry => entry.record.subject).Nodup

def Current (records : List VersionRecord) (staged : List StagedVersion) : Prop :=
  ∀ entry ∈ staged, readHead records entry.record.subject = entry.head

variable {input : RecordVersionInput}

theorem RecordVersionInput.soul_key (built : input.callerBuilt = true)
    (soul : input.subjectType = .soul)
    : ∃ key, input.key = some key ∧ input.subjectId = soulSubjectId input.agentId key
      ∧ (input.previousSubjectId.isSome
        → input.previousKey.isSome ∧ input.previousAgentId.isSome) := by
  simp only [callerBuilt, soul, Bool.and_eq_true, Option.any_eq_true, decide_eq_true_eq,
    Bool.or_eq_true] at built
  obtain ⟨⟨key, keyed, pair⟩, previous⟩ := built
  refine ⟨key, keyed, pair, ?_⟩
  intro renamed
  rcases previous with absent | both
  · rw [Option.isNone_iff_eq_none.mp absent] at renamed
    cases renamed
  · exact both

theorem RecordVersionInput.head_eq (sound : SoundRecords records) (built : input.callerBuilt = true)
    : input.head records = readHead records input.subject := by
  unfold RecordVersionInput.head
  split
  · rename_i soul
    obtain ⟨key, keyed, pair, -⟩ := soul_key built soul
    rw [keyed, Option.getD_some, sound.readSoulHead_eq]
    simp [subject, soul, pair]
  · rfl

theorem appendedRecord_follows (built : input.callerBuilt = true) (stamp : AppendStamp)
    (head : Option VersionRecord)
    : Follows head (appendedRecord sha256 input stamp head) := by
  refine ⟨⟨rfl, ?_⟩, rfl, rfl⟩
  intro soul
  obtain ⟨key, keyed, pair, -⟩ := input.soul_key built soul
  exact ⟨key, keyed, pair⟩

theorem RecordVersionInput.renames (built : input.callerBuilt = true)
    (renamed : input.identityChanged = true)
    : input.subjectType = .soul
      ∧ ∃ agentId key, previousPair input = (agentId, key) ∧ input.previousKey = some key
        ∧ soulSubjectId agentId key ≠ input.subjectId := by
  simp only [identityChanged, Bool.and_eq_true, decide_eq_true_eq, Bool.or_eq_true] at renamed
  obtain ⟨⟨soul, previous⟩, changed⟩ := renamed
  obtain ⟨key, keyed, pair, both⟩ := soul_key built soul
  obtain ⟨hasKey, hasAgent⟩ := both previous
  obtain ⟨oldKey, oldKeyed⟩ := Option.isSome_iff_exists.mp hasKey
  obtain ⟨oldAgent, oldOwned⟩ := Option.isSome_iff_exists.mp hasAgent
  refine ⟨soul, oldAgent, oldKey, by simp [previousPair, oldKeyed, oldOwned], oldKeyed, ?_⟩
  intro same
  rw [pair] at same
  obtain ⟨sameAgent, sameKey⟩ := soulSubjectId_inj same
  rw [oldOwned, oldKeyed, keyed, Option.getD_some] at changed
  rcases changed with otherAgent | otherKey
  · exact otherAgent sameAgent
  · exact otherKey (by rw [sameKey])

theorem renamedRecord_follows (soul : input.subjectType = .soul) (stamp : AppendStamp)
    (oldHead : Option VersionRecord) {agentId key : String}
    (pair : previousPair input = (agentId, key)) (keyed : input.previousKey = some key)
    : Follows oldHead (renamedRecord sha256 input stamp oldHead)
      ∧ (renamedRecord sha256 input stamp oldHead).subject
        = { subjectType := .soul, subjectId := soulSubjectId agentId key } := by
  unfold renamedRecord
  rw [pair]
  refine ⟨⟨⟨rfl, fun _ => ⟨key, keyed, rfl⟩⟩, rfl, rfl⟩, ?_⟩
  rw [← soul]
  rfl

theorem stagedVersions_staging (sound : SoundRecords records) (built : input.callerBuilt = true)
    {head : Option VersionRecord} (current : readHead records input.subject = head)
    (stamp : AppendStamp)
    : Staging (stagedVersions sha256 records input head stamp)
      ∧ Current records (stagedVersions sha256 records input head stamp)
      ∧ ∀ entry ∈ stagedVersions sha256 records input head stamp,
        entry.record.subjectType = input.subjectType := by
  have appended : Follows head (appendedRecord sha256 input stamp head) :=
    appendedRecord_follows built stamp head
  have ofInput : (appendedRecord sha256 input stamp head).subject = input.subject := rfl
  unfold stagedVersions
  split
  · rename_i renamed
    obtain ⟨soul, agentId, key, pair, keyed, different⟩ := input.renames built renamed
    rw [pair]
    have oldHead : readSoulHead records agentId key
        = readHead records { subjectType := .soul, subjectId := soulSubjectId agentId key } :=
      sound.readSoulHead_eq agentId key
    obtain ⟨follows, ofOld⟩ : Follows (readSoulHead records agentId key)
          (renamedRecord sha256 input stamp (readSoulHead records agentId key))
        ∧ (renamedRecord sha256 input stamp (readSoulHead records agentId key)).subject
          = { subjectType := .soul, subjectId := soulSubjectId agentId key } :=
      renamedRecord_follows soul stamp _ pair keyed
    refine ⟨⟨?_, ?_⟩, ?_, ?_⟩
    · intro entry member
      simp only [List.mem_cons, List.not_mem_nil, or_false] at member
      rcases member with rfl | rfl
      · exact follows
      · exact appended
    · simp only [List.map_cons, List.map_nil, List.nodup_cons, List.mem_singleton,
        List.not_mem_nil, not_false_eq_true, List.nodup_nil, and_true, ofOld, ofInput]
      intro same
      exact different (congrArg Subject.subjectId same)
    · intro entry member
      simp only [List.mem_cons, List.not_mem_nil, or_false] at member
      rcases member with rfl | rfl
      · rw [ofOld]
        exact oldHead.symm
      · exact current
    · intro entry member
      simp only [List.mem_cons, List.not_mem_nil, or_false] at member
      rcases member with rfl | rfl
      · rfl
      · rfl
  · refine ⟨⟨?_, ?_⟩, ?_, ?_⟩
    · intro entry member
      obtain rfl := List.mem_singleton.mp member
      exact appended
    · simp
    · intro entry member
      obtain rfl := List.mem_singleton.mp member
      exact current
    · intro entry member
      obtain rfl := List.mem_singleton.mp member
      rfl

-- Commits and removals

/-- A commit at current heads keeps the table sound and the other subjects as they are, and
each record it stores is new, by induction on the staged records.
-/
theorem commitStaged_sound (dropped : List String) {staged : List StagedVersion}
    (sound : SoundRecords records) (staging : Staging staged) (current : Current records staged)
    : SoundRecords (commitStaged dropped records staged).1
      ∧ (∀ subject, (∀ entry ∈ staged, entry.record.subject ≠ subject)
        → ofSubject (commitStaged dropped records staged).1 subject = ofSubject records subject)
      ∧ ∀ entry ∈ (commitStaged dropped records staged).2, entry.before = none
        ∧ ∃ source ∈ staged, entry.after = source.record := by
  induction staged generalizing records with
  | nil => exact ⟨sound, fun _ _ => rfl, fun _ member => absurd member List.not_mem_nil⟩
  | cons first rest ih =>
    obtain ⟨different, distinct⟩ := List.nodup_cons.mp staging.subjects
    have restStaging : Staging rest :=
      ⟨fun entry member => staging.follows entry (List.mem_cons_of_mem _ member), distinct⟩
    have elsewhere : ∀ entry ∈ rest, first.record.subject ≠ entry.record.subject := by
      intro entry member same
      exact different (List.mem_map.mpr ⟨entry, member, same.symm⟩)
    by_cases isDropped : first.record.id ∈ dropped
    · obtain ⟨final, others, journal⟩ := ih sound restStaging
        (fun entry member => current entry (List.mem_cons_of_mem _ member))
      simp only [commitStaged, isDropped, if_true]
      refine ⟨final, ?_, ?_⟩
      · intro subject outside
        exact others subject fun entry member => outside entry (List.mem_cons_of_mem _ member)
      · intro entry member
        obtain ⟨new, source, inRest, isAfter⟩ := journal entry member
        exact ⟨new, source, List.mem_cons_of_mem _ inRest, isAfter⟩
    · have follows : Follows (readHead records first.record.subject) first.record := by
        rw [current first List.mem_cons_self]
        exact staging.follows first List.mem_cons_self
      have restCurrent : Current (putRecord records first.record) rest := by
        intro entry member
        rw [readHead, follows.ofSubject_put sound (elsewhere entry member)]
        exact current entry (List.mem_cons_of_mem _ member)
      obtain ⟨final, others, journal⟩ := ih (follows.put sound) restStaging restCurrent
      simp only [commitStaged, isDropped, if_false]
      refine ⟨final, ?_, ?_⟩
      · intro subject outside
        rw [others subject fun entry member => outside entry (List.mem_cons_of_mem _ member)]
        exact follows.ofSubject_put sound (outside first List.mem_cons_self)
      · intro entry member
        rcases List.mem_cons.mp member with rfl | later
        · refine ⟨?_, first, List.mem_cons_self, rfl⟩
          rw [List.find?_eq_none]
          intro other stored
          simpa using follows.fresh sound other stored
        · obtain ⟨new, source, inRest, isAfter⟩ := journal entry later
          exact ⟨new, source, List.mem_cons_of_mem _ inRest, isAfter⟩

theorem SoundRecords.find_id (h : SoundRecords records) {record found : VersionRecord}
    (member : record ∈ records)
    (isFound : records.find? (fun other => other.id = record.id) = some found)
    : found.subject = record.subject ∧ found.version = record.version := by
  have stored := List.mem_of_find?_eq_some isFound
  have sameId := List.find?_some isFound
  rw [decide_eq_true_eq, (h.rows found stored).id, (h.rows record member).id] at sameId
  obtain ⟨sameType, sameSubject, sameVersion⟩ := versionId_inj sameId
  exact ⟨by simp [VersionRecord.subject, sameType, sameSubject], sameVersion⟩

variable {subject : Subject}

theorem SoundRecords.head_last (h : SoundRecords records) {head : VersionRecord}
    (isHead : readHead records subject = some head) {record : VersionRecord}
    (member : record ∈ records) (ofHead : record.subject = subject)
    : record.version ≤ head.version := by
  have chain := h.chains subject
  have isOf : record ∈ ofSubject records subject := mem_ofSubject.mpr ⟨member, ofHead⟩
  have bound := chain.seq_le isOf
  rw [h.readHead_eq] at isHead
  cases rows : ofSubject records subject with
  | nil =>
    rw [rows] at isHead
    cases isHead
  | cons first rest =>
    rw [rows] at isHead chain bound
    obtain rfl := Option.some.inj isHead
    have top := chain.1
    change first.version = _ at top
    change record.version ≤ _ at bound
    simp only [List.length_cons] at bound
    omega

theorem deleteMove_head (sound : SoundRecords records) {head : VersionRecord}
    (isHead : readHead records subject = some head) (lock : Ledger SubjectType Nat) (dropped : Bool)
    (stage : WriterStage)
    : SoundRecords (deleteMove records lock head.id dropped stage).records
      ∧ (∀ other, subject ≠ other
        → ofSubject (deleteMove records lock head.id dropped stage).records other
          = ofSubject records other)
      ∧ (deleteMove records lock head.id dropped stage).removedInside = none := by
  cases dropped with
  | true => exact ⟨sound, fun _ _ => rfl, rfl⟩
  | false =>
    obtain ⟨stored, ofHead⟩ := readHead_mem sound isHead
    refine ⟨sound.deleteHead isHead, ?_, ?_⟩
    · intro other different
      exact sound.ofSubject_delete_other stored (ofHead ▸ different)
    simp only [deleteMove, Bool.false_eq_true, if_false]
    cases found : records.find? fun record => record.id = head.id with
    | none => rfl
    | some removed =>
      obtain ⟨sameSubject, sameVersion⟩ := sound.find_id stored found
      rw [Option.filter_some, if_neg]
      simp only [hasSuccessor, List.any_eq_true, decide_eq_true_eq, not_exists, not_and]
      intro other member ofRemoved
      have bound := sound.head_last isHead member
        (ofRemoved.trans (sameSubject.trans ofHead))
      omega

-- What a writer knows

def NewRows (journal : List JournalEntry) : Prop := ∀ entry ∈ journal, entry.before = none

def Holds (records : List VersionRecord) : WriterStage → Prop
  | .headRead _ input head =>
    input.callerBuilt = true ∧ readHead records input.subject = head
  | .staged subjectType _ staged =>
    Staging staged ∧ Current records staged
      ∧ ∀ entry ∈ staged, entry.record.subjectType = subjectType
  | .pending staged => Staging staged
  | .appended _ journal | .awaitingRemoval _ _ journal | .removalLocked _ _ journal
  | .removalCommitted _ journal => NewRows journal
  | .removalStaged subject recordId journal =>
    NewRows journal ∧ ∃ head, readHead records subject = some head ∧ head.id = recordId
  | .awaitingUndo entry | .undoLocked entry => entry.before = none
  | .undoing entry =>
    entry.before = none
      ∧ ∀ head, readHead records entry.after.subject = some head → head.id = entry.after.id
  | _ => True

theorem Holds.held_of_headsHeld {stage : WriterStage} (h : Holds records stage)
    (member : subject ∈ stage.headsHeld)
    : stage.held = some subject.subjectType := by
  cases stage with
  | headRead joined input head =>
    obtain rfl := List.mem_singleton.mp member
    rfl
  | staged subjectType joined staged =>
    obtain ⟨entry, inStaged, rfl⟩ := List.mem_map.mp member
    exact congrArg some (h.2.2 entry inStaged).symm
  | removalStaged =>
    obtain rfl := List.mem_singleton.mp member
    rfl
  | undoing =>
    obtain rfl := List.mem_singleton.mp member
    rfl
  | _ => cases member

theorem Holds.frame {stage : WriterStage} {after : List VersionRecord}
    (h : Holds records stage)
    (same : ∀ subject ∈ stage.headsHeld, ofSubject after subject = ofSubject records subject)
    : Holds after stage := by
  cases stage with
  | headRead joined input head =>
    refine ⟨h.1, ?_⟩
    rw [readHead, same _ List.mem_cons_self]
    exact h.2
  | staged subjectType joined staged =>
    refine ⟨h.1, ?_, h.2.2⟩
    intro entry member
    rw [readHead, same _ (List.mem_map.mpr ⟨entry, member, rfl⟩)]
    exact h.2.1 entry member
  | removalStaged subject recordId journal =>
    refine ⟨h.1, ?_⟩
    rw [readHead, same _ List.mem_cons_self]
    exact h.2
  | undoing entry =>
    refine ⟨h.1, ?_⟩
    rw [readHead, same _ List.mem_cons_self]
    exact h.2
  | _ => exact h

-- One step

def WriterStage.writes : WriterStage → List Subject
  | .pending entries => entries.map fun entry => entry.record.subject
  | stage => stage.headsHeld

/-- What a step keeps: a sound table, what its writer knows, the other subjects' rows, and no
record removed from within a chain.
-/
structure Keeps (records : List VersionRecord) (stage : WriterStage) (move : WriterMove)
    : Prop where
  sound : SoundRecords move.records
  holds : Holds move.records move.stage
  frame : ∀ subject, subject ∉ stage.writes
    → ofSubject move.records subject = ofSubject records subject
  removedInside : move.removedInside = none

section Writers

variable {lock : Ledger SubjectType Nat} {writer : Nat} {stage : WriterStage}
  {move : WriterMove}

theorem keeps_goto {next : WriterStage} (h : some (.goto records lock next) = some move)
    (sound : SoundRecords records) (holds : Holds records next)
    : Keeps records stage move := by
  obtain rfl := Option.some.inj h
  exact ⟨sound, holds, fun _ _ => rfl, rfl⟩

variable {taken : Bool}

theorem tryLockStep_keeps {key : SubjectType} {locked refused : WriterStage}
    (sound : SoundRecords records) (holdsLocked : Holds records locked)
    (holdsRefused : Holds records refused)
    (h : tryLockStep records lock writer key locked refused taken = some move)
    : Keeps records stage move := by
  unfold tryLockStep at h
  split at h
  · obtain ⟨next, -, rfl⟩ := Option.map_eq_some_iff.mp h
    exact keeps_goto rfl sound holdsLocked
  · exact keeps_goto h sound holdsRefused

theorem readHeadStep_keeps {input : RecordVersionInput} (sound : SoundRecords records)
    (h : readHeadStep records lock writer input stage = some move)
    : Keeps records stage move := by
  unfold readHeadStep at h
  split at h
  · split at h
    · rename_i built
      dsimp only at h
      split at h
      · exact keeps_goto h sound trivial
      · exact keeps_goto h sound ⟨built.2, (input.head_eq sound built.2).symm⟩
    · cases h
  · cases h

theorem stageAppendStep_keeps {stamp : AppendStamp} (sound : SoundRecords records)
    (holds : Holds records stage)
    (h : stageAppendStep sha256 records lock stamp stage = some move)
    : Keeps records stage move := by
  unfold stageAppendStep at h
  split at h
  · exact keeps_goto h sound (stagedVersions_staging sound holds.1 holds.2 stamp)
  · cases h

theorem failStep_keeps (sound : SoundRecords records) (holds : Holds records stage)
    (h : failStep records lock writer stage = some move)
    : Keeps records stage move := by
  unfold failStep at h
  split at h
  · exact keeps_goto h sound trivial
  · exact keeps_goto h sound trivial
  · exact keeps_goto h sound trivial
  · exact keeps_goto h sound holds
  · exact keeps_goto h sound holds.1
  · exact keeps_goto h sound trivial
  · exact keeps_goto h sound trivial
  · cases h

theorem commitStaged_frame (dropped : List String) {staged : List StagedVersion}
    (sound : SoundRecords records) (staging : Staging staged) (current : Current records staged)
    {subject : Subject} (outside : subject ∉ staged.map fun entry => entry.record.subject)
    : ofSubject (commitStaged dropped records staged).1 subject = ofSubject records subject := by
  apply (commitStaged_sound dropped sound staging current).2.1
  intro entry member same
  exact outside (List.mem_map.mpr ⟨entry, member, same⟩)

theorem commitOwnedStep_keeps {dropped : List String} (sound : SoundRecords records)
    (holds : Holds records stage)
    (h : commitOwnedStep records lock writer dropped stage = some move)
    : Keeps records stage move := by
  unfold commitOwnedStep at h
  split at h
  · obtain ⟨staging, current, -⟩ := holds
    obtain ⟨final, -, journal⟩ := commitStaged_sound dropped sound staging current
    obtain rfl := Option.some.inj h
    exact ⟨final, fun entry member => (journal entry member).1,
      fun _ outside => commitStaged_frame dropped sound staging current outside, rfl⟩
  · cases h

theorem leaveToCallerStep_keeps (sound : SoundRecords records) (holds : Holds records stage)
    (h : leaveToCallerStep records lock writer stage = some move)
    : Keeps records stage move := by
  unfold leaveToCallerStep at h
  split at h
  · exact keeps_goto h sound holds.1
  · cases h

theorem commitJoinedStep_keeps {dropped : List String} (sound : SoundRecords records)
    (holds : Holds records stage)
    (current : ∀ staged, stage = .pending staged → Current records staged)
    (h : commitJoinedStep records lock dropped stage = some move)
    : Keeps records stage move := by
  unfold commitJoinedStep at h
  split at h
  · rename_i staged
    have heads := current staged rfl
    obtain rfl := Option.some.inj h
    exact ⟨(commitStaged_sound dropped sound holds heads).1, trivial,
      fun _ outside => commitStaged_frame dropped sound holds heads outside, rfl⟩
  · cases h

theorem lockRemovalStep_keeps (sound : SoundRecords records) (holds : Holds records stage)
    (h : lockRemovalStep records lock writer taken stage = some move)
    : Keeps records stage move := by
  unfold lockRemovalStep at h
  split at h
  · refine tryLockStep_keeps sound ?_ ?_ h
    · exact holds
    · exact holds
  · cases h

theorem readRemovalStep_keeps (sound : SoundRecords records) (holds : Holds records stage)
    (h : readRemovalStep records lock writer stage = some move)
    : Keeps records stage move := by
  unfold readRemovalStep at h
  split at h
  · split at h
    · exact keeps_goto h sound holds
    rename_i head isHead
    split at h
    · exact keeps_goto h sound holds
    · rename_i same
      exact keeps_goto h sound ⟨holds, head, isHead, not_not.mp same⟩
  · cases h

theorem commitRemovalStep_keeps {dropped : Bool} (sound : SoundRecords records)
    (holds : Holds records stage)
    (h : commitRemovalStep records lock dropped stage = some move)
    : Keeps records stage move := by
  unfold commitRemovalStep at h
  split at h
  · rename_i subject recordId journal
    obtain ⟨new, head, isHead, rfl⟩ := holds
    obtain rfl := Option.some.inj h
    obtain ⟨final, others, inside⟩ :=
      deleteMove_head sound isHead lock dropped (.removalCommitted subject journal)
    refine ⟨final, ?_, ?_, inside⟩
    · cases dropped <;> exact new
    intro other outside
    apply others
    rintro rfl
    exact outside List.mem_cons_self
  · cases h

theorem lockUndoStep_keeps (sound : SoundRecords records) (holds : Holds records stage)
    (h : lockUndoStep records lock writer taken stage = some move)
    : Keeps records stage move := by
  unfold lockUndoStep at h
  split at h
  · refine tryLockStep_keeps sound ?_ ?_ h
    · exact holds
    · trivial
  · cases h

theorem checkUndoStep_keeps (sound : SoundRecords records) (holds : Holds records stage)
    (h : checkUndoStep records lock writer stage = some move)
    : Keeps records stage move := by
  unfold checkUndoStep at h
  split at h
  · split at h
    · rename_i head isHead
      split at h
      · exact keeps_goto h sound trivial
      rename_i same
      refine keeps_goto h sound ⟨holds, ?_⟩
      intro other isOther
      obtain rfl := Option.some.inj (isHead.symm.trans isOther)
      exact not_not.mp same
    · rename_i noHead
      refine keeps_goto h sound ⟨holds, ?_⟩
      intro head isHead
      rw [noHead] at isHead
      cases isHead
  · cases h

theorem SoundRecords.head_of_mem (h : SoundRecords records) {record : VersionRecord}
    (member : record ∈ records)
    : ∃ head, readHead records record.subject = some head := by
  rw [h.readHead_eq]
  cases rows : ofSubject records record.subject with
  | nil =>
    have isOf : record ∈ ofSubject records record.subject := mem_ofSubject.mpr ⟨member, rfl⟩
    rw [rows] at isOf
    cases isOf
  | cons head rest => exact ⟨head, rfl⟩

theorem undoEntryStep_keeps {dropped : Bool} (sound : SoundRecords records)
    (holds : Holds records stage) (h : undoEntryStep records lock dropped stage = some move)
    : Keeps records stage move := by
  unfold undoEntryStep at h
  split at h
  · rename_i entry
    obtain ⟨new, checked⟩ := holds
    split at h
    · rename_i stored
      have member := List.mem_of_find?_eq_some stored
      obtain ⟨head, isHead⟩ := sound.head_of_mem member
      rw [new] at h
      obtain rfl := Option.some.inj h
      rw [← checked head isHead]
      obtain ⟨final, others, inside⟩ := deleteMove_head sound isHead lock dropped (.undone entry)
      refine ⟨final, ?_, ?_, inside⟩
      · cases dropped <;> trivial
      intro other outside
      apply others
      rintro rfl
      exact outside List.mem_cons_self
    · exact keeps_goto h sound trivial
  · cases h

theorem writerStep_keeps {label : WriterLabel} (sound : SoundRecords records)
    (holds : Holds records stage)
    (current : ∀ dropped staged, label = .commitJoined dropped → stage = .pending staged
      → Current records staged)
    (h : writerStep sha256 records lock writer stage label = some move)
    : Keeps records stage move := by
  cases label with
  | start subjectType joins =>
    simp only [writerStep, startStep] at h
    split at h
    · split at h
      · cases h
      · exact keeps_goto h sound trivial
    · cases h
  | lockAppend taken =>
    simp only [writerStep, lockAppendStep] at h
    split at h
    · refine tryLockStep_keeps sound ?_ ?_ h
      · trivial
      · trivial
    · cases h
  | readHead => exact readHeadStep_keeps sound h
  | stageAppend => exact stageAppendStep_keeps sound holds h
  | fail => exact failStep_keeps sound holds h
  | commitOwned => exact commitOwnedStep_keeps sound holds h
  | leaveToCaller => exact leaveToCallerStep_keeps sound holds h
  | commitJoined dropped =>
    exact commitJoinedStep_keeps sound holds (fun staged => current dropped staged rfl) h
  | abortJoined =>
    simp only [writerStep, abortJoinedStep] at h
    split at h
    · exact keeps_goto h sound trivial
    · cases h
  | remove subject recordId =>
    simp only [writerStep, removeStep] at h
    split at h
    · exact keeps_goto h sound holds
    · cases h
  | lockRemoval => exact lockRemovalStep_keeps sound holds h
  | readRemoval => exact readRemovalStep_keeps sound holds h
  | commitRemoval => exact commitRemovalStep_keeps sound holds h
  | endRemoval =>
    simp only [writerStep, endRemovalStep] at h
    split at h
    · exact keeps_goto h sound holds
    · cases h
  | undo =>
    simp only [writerStep, undoStep] at h
    split at h
    · exact keeps_goto h sound (holds _ List.mem_cons_self)
    · cases h
  | lockUndo => exact lockUndoStep_keeps sound holds h
  | checkUndo => exact checkUndoStep_keeps sound holds h
  | undoEntry => exact undoEntryStep_keeps sound holds h
  | endUndo =>
    simp only [writerStep, endUndoStep] at h
    split at h
    · exact keeps_goto h sound trivial
    · cases h
  | finish =>
    simp only [writerStep, finishStep] at h
    split at h
    · exact keeps_goto h sound trivial
    · cases h

theorem tryLockStep_some {key : SubjectType} {locked refused : WriterStage}
    (h : tryLockStep records lock writer key locked refused taken = some move)
    : (∃ next, lock.tryLock writer key = some next ∧ move = .goto records next locked)
      ∨ move = .goto records lock refused := by
  unfold tryLockStep at h
  split at h
  · obtain ⟨next, tried, rfl⟩ := Option.map_eq_some_iff.mp h
    exact Or.inl ⟨next, tried, rfl⟩
  · exact Or.inr (Option.some.inj h).symm

@[grind =] theorem deleteMove_lock (recordId : String) (dropped : Bool)
    : (deleteMove records lock recordId dropped stage).lock = lock := by
  cases dropped <;> rfl

@[grind =] theorem deleteMove_stage (recordId : String) (dropped : Bool)
    : (deleteMove records lock recordId dropped stage).stage = stage := by
  cases dropped <;> rfl

theorem writerStep_lock {label : WriterLabel}
    (h : writerStep sha256 records lock writer stage label = some move)
    : lock.Moves move.lock writer stage.held move.stage.held := by
  cases label with
  | _ =>
    simp only [writerStep, startStep, lockAppendStep, readHeadStep, stageAppendStep, failStep,
      commitOwnedStep, leaveToCallerStep, commitJoinedStep, abortJoinedStep, removeStep,
      lockRemovalStep, readRemovalStep, commitRemovalStep, endRemovalStep, undoStep,
      lockUndoStep, checkUndoStep, undoEntryStep, endUndoStep, finishStep] at h
    grind [WriterMove.goto, WriterStage.held, Ledger.Moves, → tryLockStep_some]

end Writers

end Flair.InstructionVersions
