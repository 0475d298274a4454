import Flair.Approvals.ApprovalStore

/-! What a step of a call does to the approval store: the file it changes, the record it
publishes, and what stays of the files of the other calls.
-/

namespace Flair.Approvals

open Dynamic Transition

variable {host : Host}

-- What the store holds

def Store.recordOf (store : Store) (sha256 : String) : Option (Except String Value) :=
  (store.approvals.get sha256).map StoredFile.content

def HasRecord (store : Store) (sha256 : String) : Prop := (store.recordOf sha256).isSome

def Intact (host : Host) (store : Store) (sha256 : String) : Prop :=
  ∃ file, store.archives.get sha256 = some file ∧ host.sha256Of file.content = sha256

def Revokes (read record : ApprovalRecord) : Prop :=
  read.revokedAt = none
    ∧ ∃ at_ by_, record = { read with revokedAt := some at_, revokedBy := some by_ }

variable {sha256 : String}

theorem intact_of_read {store : Store} {stored : Buffer}
    (read : readStoredArchive host store sha256 = .ok (some stored))
    (hashed : host.sha256Of stored = sha256)
    : Intact host store sha256 := by
  unfold readStoredArchive at read
  split at read
  · simp at read
  case h_2 file held =>
    split at read
    · obtain rfl := Option.some.inj (Except.ok.inj read)
      exact ⟨file, held, hashed⟩
    · contradiction

variable {record : ApprovalRecord}

theorem recordOf_of_read {store : Store} (read : readRecord host store sha256 = .ok (some record))
    : (store.recordOf sha256).map (parseApprovalRecord · sha256) = some (.ok record) := by
  unfold readRecord at read
  split at read
  · simp at read
  case h_2 file held =>
    split at read
    · contradiction
    split at read
    · contradiction
    case h_2 parsed same =>
      obtain rfl := Option.some.inj (Except.ok.inj read)
      simp [Store.recordOf, held, same]

-- Changes of the files

def makesDirectory (store : Store) : CallStage → Bool
  | .approving _ (.ensuring dir) => (store.dir dir).isNone
  | _ => false

inductive FileChange (host : Host) (call : Nat) (store : Store) (making : Bool) : Store → Prop where
  | none : FileChange host call store making store
  | makeDir (dir : StoreDir) (makes : making = true) :
      FileChange host call store making (store.makeDir host call dir)
  | setMode (dir : StoreDir) : FileChange host call store making (store.setMode dir)
  | createArchiveTemp (name : TempName) (own : name.pid = call) :
      FileChange host call store making (store.createArchiveTemp host call name)
  | fillArchiveTemp (name : TempName) (bytes : Buffer) (own : name.pid = call) :
      FileChange host call store making (store.fillArchiveTemp host name bytes)
  | dropArchiveTemp (name : TempName) (lingers : Bool) (own : name.pid = call) :
      FileChange host call store making (store.dropArchiveTemp name lingers)
  | linkArchive (sha256 : String) (bytes : Buffer)
      (fresh : store.archives.get sha256 = Option.none) :
      FileChange host call store making
        (store.linkArchive sha256 (ownStat host .file 0o600) bytes)
  | createApprovalTemp (name : TempName) (own : name.pid = call) :
      FileChange host call store making (store.createApprovalTemp host call name)
  | fillApprovalTemp (name : TempName) (value : Value) (own : name.pid = call) :
      FileChange host call store making (store.fillApprovalTemp host name value)
  | dropApprovalTemp (name : TempName) (lingers : Bool) (own : name.pid = call) :
      FileChange host call store making (store.dropApprovalTemp name lingers)
  | renameRecord (revokes : Option ApprovalRecord) (record : ApprovalRecord) (name : TempName)
      (own : name.pid = call) :
      FileChange host call store making
        (store.renameRecord call revokes record name (ownStat host .file 0o600)
          (serializeRecord record))

/-- What a call's step leaves as it was: the copies, which digests have a record, and the
temp files of the other calls.
-/
structure Beside (call : Nat) (before after : Store) : Prop where
  archives : ∀ sha256 file, before.archives.get sha256 = some file
    → after.archives.get sha256 = some file
  records : ∀ sha256, HasRecord before sha256 → HasRecord after sha256
  archiveTemps : ∀ name : TempName, name.pid ≠ call
    → after.archiveTemps.get name = before.archiveTemps.get name
  approvalTemps : ∀ name : TempName, name.pid ≠ call
    → after.approvalTemps.get name = before.approvalTemps.get name

theorem Beside.refl (call : Nat) (store : Store) : Beside call store store :=
  ⟨fun _ _ held => held, fun _ held => held, fun _ _ => rfl, fun _ _ => rfl⟩

variable {before after : Store}

theorem FileChange.beside {call : Nat} {making : Bool}
    (change : FileChange host call before making after)
    : Beside call before after := by
  have same := Beside.refl call before
  cases change with
  | none => exact same
  | makeDir dir _ => exact ⟨same.archives, same.records, same.archiveTemps, same.approvalTemps⟩
  | setMode dir => exact ⟨same.archives, same.records, same.archiveTemps, same.approvalTemps⟩
  | createArchiveTemp name own | fillArchiveTemp name bytes own =>
    refine { same with archiveTemps := fun other foreign => ?_ }
    have apart : other ≠ name := by rintro rfl; exact foreign own
    exact (InsertionMap.get_set _).trans (if_neg apart)
  | dropArchiveTemp name lingers own =>
    refine { same with archiveTemps := fun other foreign => ?_ }
    have apart : other ≠ name := by rintro rfl; exact foreign own
    cases lingers with
    | true => rfl
    | false => exact InsertionMap.get_delete.trans (if_neg apart)
  | linkArchive sha256 bytes fresh =>
    refine { same with archives := fun other file held => ?_ }
    have apart : other ≠ sha256 := by rintro rfl; simp [fresh] at held
    exact ((InsertionMap.get_set _).trans (if_neg apart)).trans held
  | createApprovalTemp name own | fillApprovalTemp name value own =>
    refine { same with approvalTemps := fun other foreign => ?_ }
    have apart : other ≠ name := by rintro rfl; exact foreign own
    exact (InsertionMap.get_set _).trans (if_neg apart)
  | dropApprovalTemp name lingers own =>
    refine { same with approvalTemps := fun other foreign => ?_ }
    have apart : other ≠ name := by rintro rfl; exact foreign own
    cases lingers with
    | true => rfl
    | false => exact InsertionMap.get_delete.trans (if_neg apart)
  | renameRecord revokes record name own =>
    refine ⟨same.archives, fun other held => ?_, same.archiveTemps, fun other foreign => ?_⟩
    · unfold HasRecord Store.recordOf Store.renameRecord at *
      rw [InsertionMap.get_set]
      split
      · rfl
      · exact held
    · have apart : other ≠ name := by rintro rfl; exact foreign own
      exact InsertionMap.get_delete.trans (if_neg apart)

theorem Beside.intact {call : Nat} (beside : Beside call before after)
    (intact : Intact host before sha256)
    : Intact host after sha256 := by
  obtain ⟨file, held, hashed⟩ := intact
  exact ⟨file, beside.archives sha256 file held, hashed⟩

-- Where a call stands

/-- What lets a call write its record: a verified copy, or the record it revokes. -/
def Backed (host : Host) (store : Store) (record : ApprovalRecord)
    : Option ApprovalRecord → Prop
  | none => Intact host store record.sha256
  | some read => HasRecord store record.sha256 ∧ Revokes read record

def WriteHolds (host : Host) (store : Store) (call : Nat) (record : ApprovalRecord)
    : WriteStage → Prop
  | .staging => True
  | .filling name => name.pid = call
  | .publishing name =>
    name.pid = call
      ∧ store.approvalTemps.get name
        = some ⟨ownStat host .file 0o600, some (serializeRecord record)⟩

def StageHolds (host : Host) (store : Store) (call : Nat) : CallStage → Prop
  | .approving _ (.fillingArchive name) | .approving _ (.droppingTemp name) => name.pid = call
  | .approving input (.publishingArchive name) =>
    name.pid = call
      ∧ store.archiveTemps.get name = some ⟨ownStat host .file 0o600, some input.bytes⟩
  | .writing revokes record at_ =>
    Backed host store record revokes ∧ WriteHolds host store call record at_
  | _ => True

theorem Backed.beside {call : Nat} {revokes : Option ApprovalRecord}
    (beside : Beside call before after) (backed : Backed host before record revokes)
    : Backed host after record revokes := by
  cases revokes with
  | none => exact beside.intact backed
  | some read => exact ⟨beside.records _ backed.1, backed.2⟩

variable {stage : CallStage}

theorem StageHolds.beside {call other : Nat} (beside : Beside other before after)
    (apart : call ≠ other) (holds : StageHolds host before call stage)
    : StageHolds host after call stage := by
  cases stage with
  | approving input at_ =>
    cases at_ with
    | publishingArchive name =>
      obtain ⟨rfl, held⟩ := holds
      exact ⟨rfl, (beside.archiveTemps name apart).trans held⟩
    | _ => exact holds
  | writing revokes record at_ =>
    obtain ⟨backed, ready⟩ := holds
    refine ⟨backed.beside beside, ?_⟩
    cases at_ with
    | publishing name =>
      obtain ⟨rfl, held⟩ := ready
      exact ⟨rfl, (beside.approvalTemps name apart).trans held⟩
    | _ => exact ready
  | _ => exact holds

-- Steps

/-- What a step of a call does: it publishes its record and returns, or it leaves every
record and goes on.
-/
inductive Advanced (host : Host) (call : Nat) (store : Store)
    : CallStage → Store × CallStage → Prop where
  | quiet {stage next : CallStage} {after : Store}
      (change : FileChange host call store (makesDirectory store stage) after)
      (approvals : after.approvals = store.approvals) (writes : after.writes = store.writes)
      (unreturned : ∀ record, next ≠ .returned record)
      (holds : StageHolds host after call next) :
      Advanced host call store stage (after, next)
  | published (revokes : Option ApprovalRecord) (record : ApprovalRecord) (name : TempName)
      (own : name.pid = call) (backed : Backed host store record revokes) :
      Advanced host call store (.writing revokes record (.publishing name))
        (store.renameRecord call revokes record name (ownStat host .file 0o600)
          (serializeRecord record), .returned record)

variable {call : Nat} {store : Store}

theorem Advanced.threw {code : ApprovalStoreErrorCode}
    : Advanced host call store stage (store, .threw code) :=
  .quiet .none rfl rfl (fun _ => CallStage.noConfusion) trivial

theorem Advanced.onward {input : ApproveArchiveInput} {at_ : ApproveStage}
    (holds : StageHolds host store call (.approving input at_))
    : Advanced host call store stage (store, .approving input at_) :=
  .quiet .none rfl rfl (fun _ => CallStage.noConfusion) holds

theorem Advanced.dropped {name : TempName} {lingers : Bool} {code : ApprovalStoreErrorCode}
    (own : name.pid = call)
    : Advanced host call store stage (store.dropArchiveTemp name lingers, .threw code) :=
  .quiet (.dropArchiveTemp name lingers own) rfl rfl (fun _ => CallStage.noConfusion) trivial

variable {out : Outcome}

theorem approveStep_advanced {input : ApproveArchiveInput} {at_ : ApproveStage}
    (holds : StageHolds host store call (.approving input at_))
    : Advanced host call store (.approving input at_)
        (approveStep host store call input out at_) := by
  cases at_ <;> simp only [approveStep]
  case opening | reopening =>
      split
      · exact .threw
      split
      · exact .threw
      first
        | exact .onward trivial
        | split <;> exact .onward trivial
  case readingRecord =>
      split
      · exact .threw
      split
      · exact .threw
      · exact .onward trivial
  case readingPrior =>
      split
      · exact .threw
      split
      · exact .threw
      split
      · exact .onward trivial
      · exact .threw
  case ensuring dir =>
      split
      · exact .threw
      split
      · exact .onward trivial
      case isFalse absent =>
        have makes : (store.dir dir).isNone = true := by simpa using absent
        exact .quiet (.makeDir dir makes) rfl rfl (fun _ => CallStage.noConfusion) trivial
  case settingMode dir =>
      split
      · exact .threw
      · exact .quiet (.setMode dir) rfl rfl (fun _ => CallStage.noConfusion) trivial
  case inspecting dir =>
      split
      · exact .threw
      split
      · cases dir <;> exact .onward trivial
      · exact .threw
  case readingExisting =>
      split
      · exact .threw
      split
      · exact .threw
      · exact .onward trivial
      split
      · exact .onward trivial
      · exact .threw
  case stagingArchive =>
      split
      · exact .dropped rfl
      · exact .quiet (.createArchiveTemp _ rfl) rfl rfl (fun _ => CallStage.noConfusion) rfl
  case fillingArchive name =>
      have own : name.pid = call := holds
      split
      · exact .dropped own
      · exact .quiet (.fillArchiveTemp name input.bytes own) rfl rfl
          (fun _ => CallStage.noConfusion) ⟨own, (InsertionMap.get_set _).trans (if_pos rfl)⟩
  case publishingArchive name =>
      obtain ⟨own, ready⟩ := holds
      split
      · exact .dropped own
      split
      · exact .dropped own
      case isFalse absent =>
        have fresh : store.archives.get input.sha256 = none := by simpa using absent
        rw [ready]
        exact .quiet (.linkArchive _ _ fresh) rfl rfl (fun _ => CallStage.noConfusion) own
  case droppingTemp name =>
      exact .quiet (.dropArchiveTemp name _ holds) rfl rfl (fun _ => CallStage.noConfusion) trivial
  case verifying =>
      split
      · exact .threw
      split
      · exact .threw
      · exact .threw
      case h_3 stored read =>
        split
        case isTrue hashed =>
          exact .quiet .none rfl rfl (fun _ => CallStage.noConfusion)
            ⟨intact_of_read read hashed, trivial⟩
        · exact .threw

theorem writeStep_advanced {revokes : Option ApprovalRecord} {at_ : WriteStage}
    (holds : StageHolds host store call (.writing revokes record at_))
    : Advanced host call store (.writing revokes record at_)
        (writeStep host store call revokes record out at_) := by
  obtain ⟨backed, ready⟩ := holds
  have dropped : ∀ (name : TempName) lingers, name.pid = call
      → Advanced host call store (.writing revokes record at_)
        (store.dropApprovalTemp name lingers, .threw ApprovalStoreErrorCode.ioError) :=
    fun name lingers own =>
      .quiet (.dropApprovalTemp name lingers own) rfl rfl (fun _ => CallStage.noConfusion) trivial
  cases at_ <;> simp only [writeStep]
  case staging =>
      split
      · exact dropped _ _ rfl
      have change : FileChange host call store false
          (store.createApprovalTemp host call ⟨record.sha256, call, out.random⟩) :=
        .createApprovalTemp _ rfl
      exact .quiet change rfl rfl (fun _ => CallStage.noConfusion)
        ⟨backed.beside change.beside, rfl⟩
  case filling name =>
      have own : name.pid = call := ready
      split
      · exact dropped name _ own
      have change : FileChange host call store false
          (store.fillApprovalTemp host name (serializeRecord record)) :=
        .fillApprovalTemp name _ own
      exact .quiet change rfl rfl (fun _ => CallStage.noConfusion)
        ⟨backed.beside change.beside, own, (InsertionMap.get_set _).trans (if_pos rfl)⟩
  case publishing name =>
      obtain ⟨own, staged⟩ := ready
      split
      · exact dropped name _ own
      · rw [staged]
        exact .published revokes record name own backed

theorem revokeStage_advanced {input : RevokeInput} {iso : String}
    : Advanced host call store (.readingToRevoke input)
        (store, revokeStage host store input iso) := by
  unfold revokeStage
  split
  · exact .threw
  · exact .threw
  case h_3 record read =>
    split
    · exact .threw
    case h_2 current =>
      have held := recordOf_of_read read
      have same : record.sha256 = input.sha256 := by
        obtain ⟨content, -, parsed⟩ := Option.map_eq_some_iff.mp held
        exact (wellFormed_of_parse parsed).2
      have present : HasRecord store record.sha256 := by
        rw [same]
        exact Option.isSome_map.symm.trans (Option.isSome_iff_exists.mpr ⟨_, held⟩)
      exact .quiet .none rfl rfl (fun _ => CallStage.noConfusion)
        ⟨⟨present, current, _, _, rfl⟩, trivial⟩

theorem loadStage_advanced {at_ : LoadStage}
    : Advanced host call store (.loading sha256 at_)
        (store, loadStage host store sha256 out at_) := by
  have stays : ∀ (now at_ : LoadStage), Advanced host call store (.loading sha256 now)
      (store, .loading sha256 at_) :=
    fun _ _ => .quiet .none rfl rfl (fun _ => CallStage.noConfusion) trivial
  have refused : ∀ (now : LoadStage) code, Advanced host call store (.loading sha256 now)
      (store, .refused code) :=
    fun _ _ => .quiet .none rfl rfl (fun _ => CallStage.noConfusion) trivial
  cases at_ <;> simp only [loadStage]
  case opening =>
    split
    · exact .threw
    split
    · exact refused _ _
    split
    · exact refused _ _
    · exact stays _ _
  case readingRecord =>
    split
    · exact .threw
    split
    · exact refused _ _
    · exact refused _ _
    · exact refused _ _
    split
    · exact refused _ _
    · exact stays _ _
  case readingCopy record =>
    split
    · exact .threw
    split
    · exact refused _ _
    · exact refused _ _
    split
    · exact refused _ _
    split
    · exact refused _ _
    · exact .quiet .none rfl rfl (fun _ => CallStage.noConfusion) trivial

variable {result : Store × CallStage}

theorem advance_advanced (holds : StageHolds host store call stage)
    (taken : advance host store call out stage = some result)
    : Advanced host call store stage result := by
  cases stage with
  | approving input at_ =>
    cases taken
    exact approveStep_advanced holds
  | openingToRevoke input =>
    simp only [advance] at taken
    split at taken
    · cases taken
      exact .threw
    split at taken
    · cases taken
      exact .threw
    split at taken
    · cases taken
      exact .threw
    · cases taken
      exact .quiet .none rfl rfl (fun _ => CallStage.noConfusion) trivial
  | readingToRevoke input =>
    simp only [advance] at taken
    split at taken
    · cases taken
      exact .threw
    · cases taken
      exact revokeStage_advanced
  | writing revokes record at_ =>
    cases taken
    exact writeStep_advanced holds
  | loading sha256 at_ =>
    cases taken
    exact loadStage_advanced
  | _ => contradiction

theorem Advanced.beside (advanced : Advanced host call store stage result)
    : Beside call store result.1 := by
  cases advanced with
  | quiet change => exact change.beside
  | published revokes record name own =>
    have change : FileChange host call store false _ := .renameRecord revokes record name own
    exact change.beside

theorem Advanced.holds (advanced : Advanced host call store stage result)
    : StageHolds host result.1 call result.2 := by
  cases advanced with
  | quiet _ _ _ _ holds => exact holds
  | published => trivial

end Flair.Approvals
