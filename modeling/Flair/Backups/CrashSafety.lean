import Flair.Backups.Publication

/-! What the published names hold at any step of a publication: the files it started from, the
same without their sidecar, the new archive alone, or the new pair. No archive lies beside a
sidecar that names another digest, and the reader verifies only what its sidecar names.
-/

namespace Flair.Backups

open Dynamic Transition

variable (hash : Bytes → String) (options : BackupPublishOptions) (start : Published)

-- Agreement

def Names (entry : Entry) (digest : String) : Prop :=
  ∃ sidecar, entry.read = .ok sidecar ∧ parseBackupDigest sidecar = .ok digest

def Consistent (files : Published) : Prop :=
  (files.archive = .absent ∧ files.digest = .absent)
  ∨ ∃ bytes, files.archive.read = .ok bytes ∧ Names files.digest (hash bytes)

def Agree (files : Published) : Prop :=
  ∀ bytes digest, files.archive.read = .ok bytes → Names files.digest digest
    → digest = hash bytes

theorem Names.unique {entry : Entry} {first second : String} (left : Names entry first)
    (right : Names entry second)
    : first = second := by
  obtain ⟨sidecar, read, parsed⟩ := left
  obtain ⟨other, read', parsed'⟩ := right
  obtain rfl := Except.ok.inj (read.symm.trans read')
  exact Except.ok.inj (parsed.symm.trans parsed')

theorem not_names_absent {digest : String} : ¬ Names .absent digest := by
  rintro ⟨sidecar, read, -⟩
  cases read

variable {hash} {start}

variable {files : Published}

theorem Consistent.agree (consistent : Consistent hash files)
    : Agree hash files := by
  intro bytes digest read names
  rcases consistent with ⟨absent, -⟩ | ⟨held, read', names'⟩
  · rw [absent] at read
    cases read
  · obtain rfl := Except.ok.inj (read.symm.trans read')
    exact names.unique names'

theorem agree_of_absent (absent : files.digest = .absent)
    : Agree hash files := by
  intro bytes digest _ names
  rw [absent] at names
  exact absurd names not_names_absent

-- What a publication leaves

variable (hash) (start)

/-- The files a publication of `new` over `start` leaves, wherever it stops. -/
inductive Leaves (new : Bytes) : Published → Prop where
  | unchanged : Leaves new start
  | withoutDigest : Leaves new { start with digest := .absent }
  | newArchive : Leaves new { archive := .file new, digest := .absent }
  | newPair (entry : Entry) (named : Names entry (hash new))
      : Leaves new { archive := .file new, digest := entry }

/-- The pair a publication of `new` returns for. -/
def NewPair (new : Bytes) (files : Published) : Prop :=
  files.archive = .file new ∧ Names files.digest (hash new)

def StagedDigest (staging : Option Staging) (digest : String) : Prop :=
  ∃ sidecar, staging.bind Staging.digest = some sidecar ∧ Names (.file sidecar) digest

def StageHolds (state : PublishState) : Prop :=
  let new := utf8 options.serialized
  let staged := state.staging.bind Staging.archive
  match state.stage with
  | .stageArchive | .syncArchive | .verifyArchive => state.files = start
  | .stageDigest sha256 => state.files = start ∧ sha256 = hash new ∧ staged = some new
  | .removeOldDigest sha256 =>
    state.files = start ∧ sha256 = hash new ∧ staged = some new
    ∧ StagedDigest state.staging (hash new)
  | .publishArchive sha256 =>
    state.files = { start with digest := .absent } ∧ sha256 = hash new ∧ staged = some new
    ∧ StagedDigest state.staging (hash new)
  | .publishDigest sha256 =>
    state.files = { archive := .file new, digest := .absent } ∧ sha256 = hash new
    ∧ StagedDigest state.staging (hash new)
  | .cleaning (.ok sha256) => NewPair hash new state.files ∧ sha256 = hash new
  | .returned result => NewPair hash new state.files ∧ result.sha256 = hash new
  | .cleaning (.error _) | .threw _ | .crashed => Leaves hash start new state.files

variable {hash} {start} {options}

theorem NewPair.leaves {new : Bytes} (pair : NewPair hash new files)
    : Leaves hash start new files := by
  obtain ⟨archive, names⟩ := pair
  cases files
  subst archive
  exact .newPair _ names

theorem Leaves.agree {new : Bytes} (agree : Agree hash start) (left : Leaves hash start new files)
    : Agree hash files := by
  cases left with
  | unchanged => exact agree
  | withoutDigest => exact agree_of_absent rfl
  | newArchive => exact agree_of_absent rfl
  | newPair entry named =>
    intro bytes digest read names
    cases read
    exact names.unique named

variable {state : PublishState}

theorem StageHolds.leaves (holds : StageHolds hash options start state)
    : Leaves hash start (utf8 options.serialized) state.files := by
  unfold StageHolds at holds
  split at holds
  · exact holds ▸ .unchanged
  · exact holds ▸ .unchanged
  · exact holds ▸ .unchanged
  · exact holds.1 ▸ .unchanged
  · exact holds.1 ▸ .unchanged
  · exact holds.1 ▸ .withoutDigest
  · exact holds.1 ▸ .newArchive
  · exact holds.1.leaves
  · exact holds.1.leaves
  · exact holds
  · exact holds
  · exact holds

-- One step

variable {before after : PublishState}

theorem verifyArchiveStep_holds {refusal : Option String} (files : before.files = start)
    (taken : verifyArchiveStep hash options before refusal = some after)
    : StageHolds hash options start after := by
  obtain ⟨written, staged, rfl⟩ := Option.map_eq_some_iff.mp taken
  cases refusal with
  | some cause => exact files ▸ .unchanged
  | none =>
    dsimp only
    split
    · exact files ▸ .unchanged
    · rename_i same
      obtain rfl := not_not.mp same
      exact ⟨files, rfl, staged⟩

variable {sha256 : String}

theorem stageDigestStep_holds (files : state.files = start)
    (digest : sha256 = hash (utf8 options.serialized))
    (staged : state.staging.bind Staging.archive = some (utf8 options.serialized))
    : StageHolds hash options start (stageDigestStep options state sha256) := by
  unfold stageDigestStep
  split
  · exact files ▸ .unchanged
  rename_i line formatted
  obtain ⟨held, present, archive⟩ := Option.bind_eq_some_iff.mp staged
  refine ⟨files, digest, ?_, utf8 line, ?_, utf8 line, rfl, ?_⟩
  · simpa [present] using archive
  · simp [present]
  · exact digest ▸ parseBackupDigest_format formatted

theorem publishArchiveStep_holds (files : before.files = { start with digest := .absent })
    (digest : sha256 = hash (utf8 options.serialized))
    (staged : before.staging.bind Staging.archive = some (utf8 options.serialized))
    (sidecar : StagedDigest before.staging (hash (utf8 options.serialized)))
    (taken : publishArchiveStep before sha256 = some after)
    : StageHolds hash options start after := by
  obtain ⟨bytes, present, rfl⟩ := Option.map_eq_some_iff.mp taken
  obtain rfl := Option.some.inj (present.symm.trans staged)
  obtain ⟨held, read, names⟩ := sidecar
  refine ⟨by simp [files], digest, held, ?_, names⟩
  obtain ⟨directory, found, archive⟩ := Option.bind_eq_some_iff.mp read
  simpa [found] using archive

theorem publishDigestStep_holds
    (files : before.files = { archive := .file (utf8 options.serialized), digest := .absent })
    (digest : sha256 = hash (utf8 options.serialized))
    (sidecar : StagedDigest before.staging (hash (utf8 options.serialized)))
    (taken : publishDigestStep before sha256 = some after)
    : StageHolds hash options start after := by
  obtain ⟨bytes, present, rfl⟩ := Option.map_eq_some_iff.mp taken
  obtain ⟨held, read, names⟩ := sidecar
  obtain rfl := Option.some.inj (present.symm.trans read)
  exact ⟨⟨by simp [files], names⟩, digest⟩

theorem removeStagingStep_holds {outcome : Except String String} (reason : Option String)
    (stage : state.stage = .cleaning outcome) (holds : StageHolds hash options start state)
    : StageHolds hash options start (removeStagingStep options state reason outcome) := by
  unfold StageHolds at holds
  rw [stage] at holds
  cases outcome with
  | ok sha256 => exact holds
  | error cause => exact holds

theorem publishStep_holds {label : PublishLabel} (holds : StageHolds hash options start before)
    (taken : publishStep hash options before label = some after)
    : StageHolds hash options start after := by
  cases label with
  | stageArchive _ | syncArchive =>
    simp only [publishStep] at taken
    split at taken
    · rename_i stage
      cases taken
      simp only [StageHolds, stage] at holds
      exact holds
    · cases taken
  | verifyArchive refusal =>
    simp only [publishStep] at taken
    split at taken
    · rename_i stage
      simp only [StageHolds, stage] at holds
      exact verifyArchiveStep_holds holds taken
    · cases taken
  | stageDigest =>
    simp only [publishStep] at taken
    split at taken
    · rename_i sha256 stage
      cases taken
      simp only [StageHolds, stage] at holds
      exact stageDigestStep_holds holds.1 holds.2.1 holds.2.2
    · cases taken
  | removeOldDigest =>
    simp only [publishStep] at taken
    split at taken
    · rename_i sha256 stage
      cases taken
      simp only [StageHolds, stage] at holds
      obtain ⟨files, digest, staged, sidecar⟩ := holds
      exact ⟨by simp [removeOldDigestStep, files], digest, staged, sidecar⟩
    · cases taken
  | publishArchive =>
    simp only [publishStep] at taken
    split at taken
    · rename_i sha256 stage
      simp only [StageHolds, stage] at holds
      obtain ⟨files, digest, staged, sidecar⟩ := holds
      exact publishArchiveStep_holds files digest staged sidecar taken
    · cases taken
  | publishDigest =>
    simp only [publishStep] at taken
    split at taken
    · rename_i sha256 stage
      simp only [StageHolds, stage] at holds
      obtain ⟨files, digest, sidecar⟩ := holds
      exact publishDigestStep_holds files digest sidecar taken
    · cases taken
  | fail cause left =>
    simp only [publishStep, Option.ite_none_right_eq_some] at taken
    obtain ⟨-, same⟩ := taken
    cases same
    exact holds.leaves
  | removeStaging reason =>
    simp only [publishStep] at taken
    split at taken
    · rename_i outcome stage
      cases taken
      exact removeStagingStep_holds reason stage holds
    · cases taken
  | crash left =>
    cases taken
    exact holds.leaves

theorem stageHolds_reachable (reached : (publication hash options start).Reachable state)
    : StageHolds hash options start state := by
  refine System.Reachable.invariant ?_ ?_ reached
  · rintro first rfl
    rfl
  · intro before label after holds taken
    exact publishStep_holds holds taken

-- The reader

variable {Archive : Type} {parseRestoreArchive : Bytes → Except ArchiveRefusal Archive}

theorem readBackupArtifact_verified {archivePath digestPath : String} {archive : Archive}
    (read : readBackupArtifact hash parseRestoreArchive archivePath files
      = .verified archive sha256 digestPath)
    : ∃ bytes, files.archive.read = .ok bytes ∧ parseRestoreArchive bytes = .ok archive
      ∧ Names files.digest (hash bytes) ∧ sha256 = hash bytes := by
  unfold readBackupArtifact at read
  split at read
  · cases read
  rename_i bytes opened
  split at read
  · rename_i refusal refused
    subst read
    unfold readSidecar at refused
    split at refused <;> cases refused
  rename_i sidecar found
  have digest : files.digest.read = .ok sidecar := by
    unfold readSidecar at found
    split at found <;> simp_all
  split at read
  · cases read
  rename_i recorded parsed
  split at read
  · cases read
  rename_i same
  obtain rfl := not_not.mp same
  split at read
  · cases read
  rename_i content admitted
  cases read
  exact ⟨bytes, opened, admitted, ⟨sidecar, digest, parsed⟩, rfl⟩

theorem readBackupArtifact_mismatch {bytes : Bytes} {digest : String} (archivePath : String)
    (read : files.archive.read = .ok bytes) (names : Names files.digest digest)
    (different : digest ≠ hash bytes)
    : ∃ reason, readBackupArtifact hash parseRestoreArchive archivePath files
      = .refused .digestMismatch reason (some (hash bytes)) := by
  obtain ⟨sidecar, found, parsed⟩ := names
  have present : (readSidecar archivePath (hash bytes) files.digest
      : Except (BackupArtifact Archive) Bytes) = .ok sidecar := by
    unfold readSidecar
    rw [found]
  simp [readBackupArtifact, read, present, parsed, different]

/-- Wherever a publication stops, no archive lies beside a sidecar that names another digest,
and the reader would refuse one; it verifies only the archive its sidecar names; and the
sidecar's text is read back as the digest it was written for, whatever the file name.
-/
theorem publication_crash_safe {state : PublishState} (archivePath : String)
    (consistent : Consistent hash start)
    (reached : (publication hash options start).Reachable state)
    : Leaves hash start (utf8 options.serialized) state.files
      ∧ Agree hash state.files
      ∧ (∀ (files : Published) (bytes : Bytes) (digest : String),
          files.archive.read = .ok bytes → Names files.digest digest → digest ≠ hash bytes
          → ∃ reason, readBackupArtifact hash parseRestoreArchive archivePath files
            = .refused .digestMismatch reason (some (hash bytes)))
      ∧ (∀ archive sha256 digestPath,
          readBackupArtifact hash parseRestoreArchive archivePath state.files
            = .verified archive sha256 digestPath
          → ∃ bytes, state.files.archive.read = .ok bytes
            ∧ parseRestoreArchive bytes = .ok archive ∧ Names state.files.digest (hash bytes) ∧ sha256 = hash bytes)
      ∧ ∀ sha256 archiveName, isSha256Hex sha256 = true → archiveName ≠ ""
          → ∃ line, formatBackupDigest sha256 archiveName = .ok line
            ∧ parseBackupDigest (utf8 line) = .ok sha256 := by
  have left := (stageHolds_reachable reached).leaves
  refine ⟨left, left.agree consistent.agree, ?_, ?_, ?_⟩
  · intro files bytes digest read names different
    exact readBackupArtifact_mismatch archivePath read names different
  · intro archive sha256 digestPath read
    exact readBackupArtifact_verified read
  · intro sha256 archiveName hex named
    obtain ⟨line, written⟩ := formatBackupDigest_total hex named
    exact ⟨line, written, parseBackupDigest_format written⟩

def emptyObjectDigest (_ : Bytes) : String :=
  "44136fa355b3678a1146ad16f7e8649e94fb4fc21fe77e8310c060f61caaff8a"

def noFiles : Published := { archive := .absent, digest := .absent }

/-- Witness: a crash once the archive is renamed over no files. -/
theorem crashed_before_publishDigest
    : Leaves emptyObjectDigest noFiles (utf8 "{}")
        { archive := .file (utf8 "{}"), digest := .absent }
      ∧ Agree emptyObjectDigest { archive := .file (utf8 "{}"), digest := .absent } := by
  have reached : (publication emptyObjectDigest { outputPath := "b.json", serialized := "{}" }
      noFiles).Reachable {
        files := { archive := .file (utf8 "{}"), digest := .absent }
        staging := none
        removedOldDigest := false
        publishedArchive := true
        stage := .crashed } :=
    System.reachable_of_run rfl
      (show System.run _ _ [.stageArchive (utf8 "{}"), .syncArchive, .verifyArchive none,
        .stageDigest, .removeOldDigest, .publishArchive, .crash none] = _ from rfl)
  have safe := @publication_crash_safe _ _ _ Unit (fun _ => .ok ()) _ "b.json" (.inl ⟨rfl, rfl⟩)
    reached
  exact ⟨safe.1, safe.2.1⟩

end Flair.Backups
