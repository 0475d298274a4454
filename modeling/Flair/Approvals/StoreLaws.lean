import Flair.Approvals.StoreSafety

/-! Runs of the approval store. Records follow verified copies in every run; under a condition
on the calls a revocation revokes the record that was current, every record parses back and
every state is one the store opens.
-/

namespace Flair.Approvals

open Dynamic Transition

variable {host : Host}

-- Every run

def publishedContent (start : Store) (writes : List RecordWrite) (sha256 : String)
    : Option (Except String Value) :=
  match writes.find? (·.record.sha256 = sha256) with
  | some write => some (.ok (serializeRecord write.record))
  | none => start.recordOf sha256

variable {start : Store} {sha256 : String}

theorem publishedContent_cons {write : RecordWrite} {writes : List RecordWrite}
    : publishedContent start (write :: writes) sha256
      = if sha256 = write.record.sha256 then some (.ok (serializeRecord write.record))
        else publishedContent start writes sha256 := by
  unfold publishedContent
  rw [List.find?_cons]
  by_cases same : sha256 = write.record.sha256
  · simp [same]
  · have apart : write.record.sha256 ≠ sha256 := fun equal => same equal.symm
    simp only [if_neg same, apart, decide_false]

/-- What holds of a store and the calls on it without a condition. The copy of an approved
digest is intact, and so is that of every record when those of the start are; a call that
threw has published no record, one that returned has published its record, and the records
are what the publications made them.
-/
structure FollowsCopies (host : Host) (start : Store) (state : ApprovalState) : Prop where
  approved : ∀ write ∈ state.store.writes, write.revokes = none
    → Intact host state.store write.record.sha256
  verified : ∀ sha256, HasRecord state.store sha256
    → (HasRecord start sha256 → Intact host start sha256) → Intact host state.store sha256
  thrown : ∀ call code, state.call call = .threw code
    → ∀ write ∈ state.store.writes, write.call ≠ call
  returned : ∀ call record, state.call call = .returned record
    → ∃ write ∈ state.store.writes, write.call = call ∧ write.record = record
  records : ∀ sha256, state.store.recordOf sha256 = publishedContent start state.store.writes sha256

structure StoreInvariant (host : Host) (start : Store) (state : ApprovalState) : Prop where
  stages : ∀ call, StageHolds host state.store call (state.call call)
  copies : ∀ sha256 file, start.archives.get sha256 = some file
    → state.store.archives.get sha256 = some file
  verified : ∀ sha256, HasRecord state.store sha256
    → (HasRecord start sha256 → Intact host start sha256) → Intact host state.store sha256
  approved : ∀ write ∈ state.store.writes, write.revokes = none
    → Intact host state.store write.record.sha256
  published : ∀ write ∈ state.store.writes, state.call write.call = .returned write.record
  returned : ∀ call record, state.call call = .returned record
    → ∃ write ∈ state.store.writes, write.call = call ∧ write.record = record
  records : ∀ sha256, state.store.recordOf sha256 = publishedContent start state.store.writes sha256

variable {state : ApprovalState} {call : Nat} {stage : CallStage}

theorem goto_call {other : Nat}
    : (state.goto call stage).call other = if other = call then stage else state.call other := by
  exact Function.update_apply state.call call stage other

variable {store : Store} {record : ApprovalRecord}

theorem recordOf_rename {revokes : Option ApprovalRecord} {name : TempName} {stat : Stats}
    {value : Value}
    : (store.renameRecord call revokes record name stat value).recordOf sha256
      = if sha256 = record.sha256 then some (.ok value) else store.recordOf sha256 := by
  unfold Store.recordOf Store.renameRecord
  rw [InsertionMap.get_set]
  split <;> rfl

@[simp] theorem goto_store
    : (state.goto call stage).store = state.store :=
  rfl

variable {before after : ApprovalState} {label : ApprovalLabel}

theorem approvals_step_cases (taken : (approvals host).step before label = some after)
    : (∃ call request, label = .begin_ call request ∧ before.call call = .idle
        ∧ after = before.goto call (begin_ host request))
      ∨ (∃ call, label = .crash call ∧ (before.call call).running = true
        ∧ after = before.goto call .crashed)
      ∨ ∃ call out store stage, label = .advance call out
        ∧ (IsoTime.toISOString out.now).isSome
        ∧ advance host before.store call out (before.call call) = some (store, stage)
        ∧ after = { before with store }.goto call stage := by
  cases label with
  | begin_ call request =>
    simp only [approvals] at taken
    split at taken
    case h_1 idle => exact .inl ⟨call, request, rfl, idle, (Option.some.inj taken).symm⟩
    · contradiction
  | advance call out =>
    simp only [approvals] at taken
    split at taken
    · contradiction
    case isFalse shown =>
      obtain ⟨⟨store, stage⟩, advanced, same⟩ := Option.map_eq_some_iff.mp taken
      have dated : (IsoTime.toISOString out.now).isSome := by
        rwa [Option.isNone_iff_eq_none, ← Ne, Option.ne_none_iff_isSome] at shown
      exact .inr (.inr ⟨call, out, store, stage, rfl, dated, advanced, same.symm⟩)
  | crash call =>
    simp only [approvals, Option.ite_none_right_eq_some] at taken
    exact .inr (.inl ⟨call, rfl, taken.1, (Option.some.inj taken.2).symm⟩)

variable {request : StoreRequest}

theorem begin_unreturned
    : begin_ host request ≠ .returned record := by
  unfold begin_
  split <;> repeat' split
  all_goals exact CallStage.noConfusion

theorem begin_holds
    : StageHolds host store call (begin_ host request) := by
  unfold begin_
  split <;> repeat' split
  all_goals trivial

theorem StoreInvariant.goto (holds : StoreInvariant host start state)
    (live : ∀ record, state.call call ≠ .returned record)
    (unreturned : ∀ {record}, stage ≠ .returned record)
    (ready : StageHolds host state.store call stage)
    : StoreInvariant host start (state.goto call stage) := by
  refine ⟨?stages, holds.copies, holds.verified, holds.approved, ?published, ?returned,
    holds.records⟩
  case stages =>
    intro other
    rw [goto_call]
    split
    · subst_vars
      exact ready
    · exact holds.stages other
  case published =>
    intro write member
    have done := holds.published write member
    have apart : write.call ≠ call := by
      intro same
      rw [same] at done
      exact live _ done
    rw [goto_call, if_neg apart]
    exact done
  case returned =>
    intro other record done
    rw [goto_call] at done
    split at done
    · exact absurd done unreturned
    · exact holds.returned other record done

theorem storeStep_invariant (holds : StoreInvariant host start before)
    (taken : (approvals host).step before label = some after)
    : StoreInvariant host start after := by
  rcases approvals_step_cases taken with
    ⟨call, request, -, idle, rfl⟩ | ⟨call, -, running, rfl⟩
      | ⟨call, out, store, stage, -, -, advanced, rfl⟩
  · refine holds.goto (fun record => ?_) begin_unreturned begin_holds
    rw [idle]
    exact CallStage.noConfusion
  · refine holds.goto (fun record => ?_) CallStage.noConfusion trivial
    intro done
    rw [done] at running
    contradiction
  · have step := advance_advanced (holds.stages call) advanced
    have beside := step.beside
    have own := step.holds
    have live : ∀ record, before.call call ≠ .returned record := by
      intro record done
      rw [done] at advanced
      contradiction
    have stages : ∀ other, StageHolds host store other
        (({ before with store }.goto call stage).call other) := by
      intro other
      rw [goto_call]
      split
      · subst_vars
        exact own
      case isFalse apart => exact (holds.stages other).beside beside apart
    have earlier : ∀ write ∈ before.store.writes,
        ({ before with store }.goto call stage).call write.call = .returned write.record := by
      intro write member
      have done := holds.published write member
      have apart : write.call ≠ call := by
        intro same
        rw [same] at done
        exact live _ done
      rw [goto_call, if_neg apart]
      exact done
    have copies : ∀ sha256 file, start.archives.get sha256 = some file
        → store.archives.get sha256 = some file :=
      fun sha256 file held => beside.archives sha256 file (holds.copies sha256 file held)
    generalize stood : before.call call = now at step
    generalize went : (store, stage) = result at step
    cases step with
    | quiet change approvals writes unreturned _ =>
      obtain ⟨rfl, rfl⟩ := Prod.mk.inj went
      have records : ∀ sha256, store.recordOf sha256 = before.store.recordOf sha256 := by
        intro sha256
        rw [Store.recordOf, approvals]
        rfl
      refine ⟨stages, copies, ?verified, ?approved, ?published, ?returned, ?records⟩
      case approved =>
        intro write member approval
        exact beside.intact (holds.approved write (writes ▸ member) approval)
      case verified =>
        intro sha256 held known
        have present : HasRecord before.store sha256 := by
          unfold HasRecord
          rw [← records]
          exact held
        exact beside.intact (holds.verified sha256 present known)
      case published =>
        intro write member
        exact earlier write (writes ▸ member)
      case returned =>
        intro other record done
        rw [goto_call] at done
        split at done
        · exact absurd done (unreturned record)
        · obtain ⟨write, member, wrote⟩ := holds.returned other record done
          exact ⟨write, writes.symm ▸ member, wrote⟩
      case records =>
        intro sha256
        exact (records sha256).trans
          ((holds.records sha256).trans (congrArg (publishedContent start · sha256) writes.symm))
    | published revokes record name _ backed =>
      obtain ⟨rfl, rfl⟩ := Prod.mk.inj went
      refine ⟨stages, copies, ?verified, ?approved, ?published, ?returned, ?records⟩
      case approved =>
        intro write member approval
        rcases List.mem_cons.mp member with rfl | old
        · simp only at approval
          subst approval
          exact beside.intact backed
        · exact beside.intact (holds.approved write old approval)
      case verified =>
        intro sha256 held known
        refine beside.intact ?_
        by_cases same : sha256 = record.sha256
        · subst same
          cases revokes with
          | none => exact backed
          | some read => exact holds.verified _ backed.1 known
        · refine holds.verified sha256 ?_ known
          simp only [goto_store] at held
          unfold HasRecord at held ⊢
          rwa [recordOf_rename, if_neg same] at held
      case published =>
        intro write member
        rcases List.mem_cons.mp member with rfl | old
        · exact goto_call.trans (if_pos rfl)
        · exact earlier write old
      case returned =>
        intro other made done
        rw [goto_call] at done
        split at done
        case isTrue same =>
          have equal := CallStage.returned.inj done
          exact ⟨_, List.mem_cons_self, same.symm, equal⟩
        · obtain ⟨write, member, wrote⟩ := holds.returned other made done
          exact ⟨write, List.mem_cons_of_mem _ member, wrote⟩
      case records =>
        intro sha256
        refine recordOf_rename.trans (Eq.trans ?_ publishedContent_cons.symm)
        split
        · rfl
        · exact holds.records sha256

-- Stores the checks accept

structure Sound (host : Host) (store : Store) : Prop where
  dirs : ∀ dir stat, store.dir dir = some stat → checkPrivateDirectory host stat = true
  strays : ∀ dir, store.strays dir = []
  archives : ∀ entry ∈ store.archives, checkPrivateFile host entry.2.stat = true
  approvals : ∀ entry ∈ store.approvals, checkPrivateFile host entry.2.stat = true
  archiveTemps : ∀ entry ∈ store.archiveTemps, checkTempFile host entry.2.stat = true
  approvalTemps : ∀ entry ∈ store.approvalTemps, checkTempFile host entry.2.stat = true

theorem Sound.checkEntries (sound : Sound host store) (dir : StoreDir)
    : checkEntries host store dir = true := by
  have empty : (store.strays dir).isEmpty = true := List.isEmpty_iff.mpr (sound.strays dir)
  cases dir with
  | root => exact empty
  | archives =>
    exact Bool.and_eq_true_iff.mpr ⟨Bool.and_eq_true_iff.mpr
      ⟨empty, List.all_eq_true.mpr sound.archives⟩, List.all_eq_true.mpr sound.archiveTemps⟩
  | approvals =>
    exact Bool.and_eq_true_iff.mpr ⟨Bool.and_eq_true_iff.mpr
      ⟨empty, List.all_eq_true.mpr sound.approvals⟩, List.all_eq_true.mpr sound.approvalTemps⟩

theorem Sound.accepted (sound : Sound host store)
    : openStoreAccepts host store = true := by
  unfold openStoreAccepts
  split
  · rfl
  case h_2 root held =>
    rw [Bool.and_eq_true, Bool.and_eq_true]
    refine ⟨⟨sound.dirs _ _ held, sound.checkEntries .root⟩, List.all_eq_true.mpr ?_⟩
    intro dir _
    split
    · rfl
    case h_2 stat present =>
      exact Bool.and_eq_true_iff.mpr ⟨sound.dirs _ _ present, sound.checkEntries dir⟩

theorem sound_of_checks
    (dirs : ∀ dir stat, store.dir dir = some stat → checkPrivateDirectory host stat = true)
    (checked : ∀ dir, checkEntries host store dir = true)
    : Sound host store := by
  have root := checked .root
  have archives := checked .archives
  have approvals := checked .approvals
  simp only [Approvals.checkEntries, Bool.and_eq_true, List.isEmpty_iff, List.all_eq_true]
    at root archives approvals
  refine ⟨dirs, fun dir => ?_, archives.1.2, approvals.1.2, archives.2, approvals.2⟩
  cases dir with
  | root => exact root
  | archives => exact archives.1.1
  | approvals => exact approvals.1.1

theorem sound_of_accepted (accepted : openStoreAccepts host store = true) (rooted : store.Rooted)
    : Sound host store := by
  have missing : ∀ dir, store.dir dir = none → (dir = .root → store.dir .archives = none
      ∧ store.dir .approvals = none) ∧ Approvals.checkEntries host store dir = true := by
    intro dir absent
    cases dir with
    | root =>
      obtain ⟨strays, below⟩ := rooted.root absent
      exact ⟨fun _ => below, by simp [Approvals.checkEntries, strays]⟩
    | archives =>
      obtain ⟨strays, files, temps⟩ := rooted.archives absent
      exact ⟨nofun, by simp [Approvals.checkEntries, strays, files, temps]⟩
    | approvals =>
      obtain ⟨strays, files, temps⟩ := rooted.approvals absent
      exact ⟨nofun, by simp [Approvals.checkEntries, strays, files, temps]⟩
  have each : ∀ dir stat, store.dir dir = some stat
      → checkPrivateDirectory host stat = true
        ∧ Approvals.checkEntries host store dir = true := by
    intro dir stat held
    unfold openStoreAccepts at accepted
    split at accepted
    case h_1 absent =>
      obtain ⟨noArchives, noApprovals⟩ := (missing .root absent).1 rfl
      cases dir <;> simp_all
    case h_2 root present =>
      rw [Bool.and_eq_true, Bool.and_eq_true, List.all_eq_true] at accepted
      obtain ⟨⟨rootPrivate, rootEntries⟩, below⟩ := accepted
      cases dir with
      | root =>
        obtain rfl := Option.some.inj (present.symm.trans held)
        exact ⟨rootPrivate, rootEntries⟩
      | archives =>
        have checked := below .archives (by simp)
        rw [held, Bool.and_eq_true] at checked
        exact checked
      | approvals =>
        have checked := below .approvals (by simp)
        rw [held, Bool.and_eq_true] at checked
        exact checked
  refine sound_of_checks (fun dir stat held => (each dir stat held).1) fun dir => ?_
  cases found : store.dir dir with
  | none => exact (missing dir found).2
  | some stat => exact (each dir stat found).2

theorem owned_own {kind : FileKind} {mode : Nat} : owned host (ownStat host kind mode) = true := by
  unfold owned ownStat
  cases host.uid <;> simp

theorem private_own : checkPrivateFile host (ownStat host .file 0o600) = true := by
  simp only [checkPrivateFile, owned_own, Bool.and_true, Bool.and_eq_true, decide_eq_true_eq]
  exact ⟨rfl, by simp [ownStat]⟩

theorem temp_own (umask : Nat)
    : checkTempFile host (ownStat host .file (narrowed 0o600 umask)) = true := by
  have closed : narrowed 0o600 umask &&& 0o077 = 0 := by
    unfold narrowed
    rw [Nat.and_xor_distrib_right, Nat.and_assoc, Nat.and_comm umask, ← Nat.and_assoc]
    simp
  simp only [checkTempFile, owned_own, Bool.and_true, Bool.and_eq_true, decide_eq_true_eq]
  exact ⟨rfl, closed⟩

theorem temp_filled : checkTempFile host (ownStat host .file 0o600) = true := by
  simp only [checkTempFile, owned_own, Bool.and_true, Bool.and_eq_true, decide_eq_true_eq]
  exact ⟨rfl, by simp [ownStat]⟩

theorem directory_own {umask : Nat} (keeps : 0o700 &&& umask = 0)
    : checkPrivateDirectory host (ownStat host .directory (narrowed 0o700 umask)) = true := by
  have exact_ : narrowed 0o700 umask = 0o700 := by
    unfold narrowed
    rw [keeps]
    rfl
  rw [exact_]
  simp only [checkPrivateDirectory, owned_own, Bool.and_true, Bool.and_eq_true,
    decide_eq_true_eq]
  exact ⟨rfl, by simp [ownStat]⟩

theorem directory_chmod {stat : Stats} (checked : checkPrivateDirectory host stat = true)
    : checkPrivateDirectory host { stat with mode := 0o700 } = true := by
  simp only [checkPrivateDirectory, Bool.and_eq_true] at checked ⊢
  exact ⟨checked.1, by simp⟩

section

variable {κ α : Type} [DecidableEq κ] {files : InsertionMap κ (StoredFile α)} {ok : Stats → Bool}

variable {key : κ}

theorem all_set {file : StoredFile α} (checked : ∀ entry ∈ files, ok entry.2.stat = true)
    (fresh : ok file.stat = true)
    : ∀ entry ∈ files.set key file, ok entry.2.stat = true := by
  intro entry member
  rcases InsertionMap.mem_of_mem_modify member with old | ⟨_, rfl⟩
  · exact checked entry old
  · exact fresh

theorem all_delete (checked : ∀ entry ∈ files, ok entry.2.stat = true)
    : ∀ entry ∈ files.delete key, ok entry.2.stat = true :=
  fun entry member => checked entry (List.mem_of_mem_filter member)

theorem all_drop {lingers : Bool} (checked : ∀ entry ∈ files, ok entry.2.stat = true)
    : ∀ entry ∈ (if lingers then files else files.delete key), ok entry.2.stat = true := by
  cases lingers with
  | true => exact checked
  | false => exact all_delete checked

end

theorem FileChange.sound {making : Bool} {before after : Store}
    (change : FileChange host call before making after)
    (keeps : making = true → 0o700 &&& host.umask call = 0) (sound : Sound host before)
    : Sound host after := by
  cases change with
  | none => exact sound
  | makeDir dir makes =>
    refine { sound with dirs := fun other stat held => ?_ }
    simp only [Store.makeDir, Function.update_apply] at held
    split at held
    · cases held
      exact directory_own (keeps makes)
    · exact sound.dirs other stat held
  | setMode dir =>
    refine { sound with dirs := fun other stat held => ?_ }
    simp only [Store.setMode, Function.update_apply] at held
    split at held
    · obtain ⟨old, present, rfl⟩ := Option.map_eq_some_iff.mp held
      exact directory_chmod (sound.dirs dir old present)
    · exact sound.dirs other stat held
  | createArchiveTemp name _ =>
    exact { sound with archiveTemps := all_set sound.archiveTemps (temp_own _) }
  | fillArchiveTemp name bytes _ =>
    exact { sound with archiveTemps := all_set sound.archiveTemps temp_filled }
  | dropArchiveTemp name lingers _ =>
    exact { sound with archiveTemps := all_drop sound.archiveTemps }
  | linkArchive sha256 bytes _ =>
    exact { sound with archives := all_set sound.archives private_own }
  | createApprovalTemp name _ =>
    exact { sound with approvalTemps := all_set sound.approvalTemps (temp_own _) }
  | fillApprovalTemp name value _ =>
    exact { sound with approvalTemps := all_set sound.approvalTemps temp_filled }
  | dropApprovalTemp name lingers _ =>
    exact { sound with approvalTemps := all_drop sound.approvalTemps }
  | renameRecord revokes record name _ =>
    exact { sound with
      approvals := all_set sound.approvals private_own
      approvalTemps := all_delete sound.approvalTemps }

-- Runs that meet the condition

/-- No call is given the empty text as its time; a process that makes a directory has a umask
that takes no owner bit; and no call publishes a record of a digest that a revocation has
read and not yet written.
-/
def KeepsApart (host : Host) (before : ApprovalState) : ApprovalLabel → Prop
  | .begin_ _ (.approve input) => input.now ≠ some ""
  | .begin_ _ (.revoke input) => input.now ≠ some ""
  | .begin_ _ (.load _) | .crash _ => True
  | .advance call _ =>
    (makesDirectory before.store (before.call call) = true → 0o700 &&& host.umask call = 0)
      ∧ ∀ revokes record name, before.call call = .writing revokes record (.publishing name)
        → ∀ other ≠ call, ∀ read revoked at_,
          before.call other = .writing (some read) revoked at_
            → revoked.sha256 ≠ record.sha256

def StageLawful (store : Store) : CallStage → Prop
  | .approving input _ => input.now ≠ some "" ∧ input.operator ≠ ""
  | .openingToRevoke input | .readingToRevoke input =>
    input.now ≠ some "" ∧ input.operator ≠ ""
  | .writing revokes record _ =>
    record.WellFormed ∧ ∀ read, revokes = some read
      → (store.recordOf record.sha256).map (parseApprovalRecord · record.sha256)
        = some (.ok read)
  | _ => True

/-- A publication of a record that parses back; a revocation replaced the record it had read,
unrevoked.
-/
structure WriteLawful (write : RecordWrite) : Prop where
  parsed : parseApprovalRecord (.ok (serializeRecord write.record)) write.record.sha256
    = .ok write.record
  revoked : ∀ read, write.revokes = some read
    → Revokes read write.record
      ∧ write.replaced.map (parseApprovalRecord · write.record.sha256) = some (.ok read)

variable {out : Outcome}

theorem iso_ne_empty (dated : (IsoTime.toISOString out.now).isSome)
    : out.iso ≠ "" := by
  unfold Outcome.iso
  unfold IsoTime.toISOString at dated ⊢
  split at dated
  · contradiction
  case isFalse inRange =>
    rw [if_neg inRange]
    simp only [Option.getD_some]
    intro empty
    have lengths := congrArg String.length empty
    simp [String.length_append] at lengths

theorem begin_lawful (apart : KeepsApart host state (.begin_ call request))
    : StageLawful store (begin_ host request) := by
  cases request with
  | approve input =>
    simp only [begin_]
    repeat' split
    all_goals trivial
  | revoke input =>
    simp only [begin_]
    repeat' split
    all_goals trivial
  | load sha256 =>
    simp only [begin_]
    split <;> trivial

variable {iso : String}

theorem getD_ne_empty {time : Option String} (given : time ≠ some "") (dated : iso ≠ "")
    : time.getD iso ≠ "" := by
  cases time with
  | none => exact dated
  | some text => exact fun empty => given (congrArg some empty)

theorem approvalRecord_wellFormed {input : ApproveArchiveInput} {stored : Buffer}
    (timed : input.now ≠ some "") (named : input.operator ≠ "") (dated : iso ≠ "")
    : (approvalRecord input stored iso).WellFormed :=
  ⟨getD_ne_empty timed dated, named, stored.bounded, .inl ⟨rfl, rfl⟩⟩

theorem revokedRecord_wellFormed {input : RevokeInput} (wellFormed : record.WellFormed)
    (timed : input.now ≠ some "") (named : input.operator ≠ "") (dated : iso ≠ "")
    : (revokedRecord input record iso).WellFormed :=
  ⟨wellFormed.approvedAt, wellFormed.approvedBy, wellFormed.size,
    .inr ⟨_, _, rfl, rfl, getD_ne_empty timed dated, named⟩⟩

theorem approveStep_lawful {input : ApproveArchiveInput} {at_ : ApproveStage}
    (dated : (IsoTime.toISOString out.now).isSome)
    (lawful : StageLawful store (.approving input at_))
    : StageLawful store (approveStep host store call input out at_).2 := by
  cases at_
  case verifying =>
    simp only [approveStep]
    repeat' split
    all_goals try trivial
    exact ⟨approvalRecord_wellFormed lawful.1 lawful.2 (iso_ne_empty dated), by simp⟩
  all_goals
    simp only [approveStep]
    repeat' split
    all_goals trivial

theorem revokeStage_lawful {input : RevokeInput} (dated : iso ≠ "")
    (lawful : StageLawful store (.readingToRevoke input))
    : StageLawful store (revokeStage host store input iso) := by
  unfold revokeStage
  split
  · trivial
  · trivial
  case h_3 record read =>
    split
    · trivial
    have held := recordOf_of_read read
    obtain ⟨content, present, parsed⟩ := Option.map_eq_some_iff.mp held
    obtain ⟨wellFormed, same⟩ := wellFormed_of_parse parsed
    refine ⟨revokedRecord_wellFormed wellFormed lawful.1 lawful.2 dated, ?_⟩
    intro other equal
    cases equal
    show (store.recordOf record.sha256).map (parseApprovalRecord · record.sha256) = _
    rw [same]
    exact held

theorem loadStage_lawful {at_ : LoadStage}
    : StageLawful store (loadStage host store sha256 out at_) := by
  cases at_ <;> simp only [loadStage]
  all_goals
    repeat' split
    all_goals trivial

theorem advance_lawful {after : Store} {next : CallStage}
    (dated : (IsoTime.toISOString out.now).isSome) (lawful : StageLawful store stage)
    (taken : advance host store call out stage = some (after, next))
    : StageLawful store next := by
  cases stage with
  | approving input at_ =>
    have same := congrArg Prod.snd (Option.some.inj taken)
    change _ = next at same
    rw [← same]
    exact approveStep_lawful dated lawful
  | openingToRevoke input =>
    simp only [advance] at taken
    repeat' split at taken
    all_goals
      obtain ⟨-, rfl⟩ := Prod.mk.inj (Option.some.inj taken)
      trivial
  | readingToRevoke input =>
    simp only [advance] at taken
    split at taken
    · obtain ⟨-, rfl⟩ := Prod.mk.inj (Option.some.inj taken)
      trivial
    · obtain ⟨-, rfl⟩ := Prod.mk.inj (Option.some.inj taken)
      exact revokeStage_lawful (iso_ne_empty dated) lawful
  | writing revokes record at_ =>
    cases at_ <;> simp only [advance, writeStep] at taken
    all_goals
      repeat' split at taken
      all_goals
        obtain ⟨-, rfl⟩ := Prod.mk.inj (Option.some.inj taken)
        trivial
  | loading sha256 at_ =>
    obtain ⟨-, rfl⟩ := Prod.mk.inj (Option.some.inj taken)
    exact loadStage_lawful
  | _ => contradiction

structure LawfulInvariant (host : Host) (state : ApprovalState) : Prop where
  sound : Sound host state.store
  stages : ∀ call, StageLawful state.store (state.call call)
  writes : ∀ write ∈ state.store.writes, WriteLawful write

theorem LawfulInvariant.goto (holds : LawfulInvariant host state)
    (lawful : StageLawful state.store stage)
    : LawfulInvariant host (state.goto call stage) := by
  refine { holds with stages := fun other => ?_ }
  rw [goto_call]
  split
  · exact lawful
  · exact holds.stages other

theorem StageLawful.beside {before after : Store}
    (same : ∀ revoked read at_, stage = .writing (some read) revoked at_
      → after.recordOf revoked.sha256 = before.recordOf revoked.sha256)
    (lawful : StageLawful before stage)
    : StageLawful after stage := by
  cases stage with
  | writing revokes record at_ =>
    refine ⟨lawful.1, ?_⟩
    rintro read rfl
    rw [same record read at_ rfl]
    exact lawful.2 read rfl
  | _ => exact lawful

theorem storeStep_lawful (invariant : StoreInvariant host start before)
    (holds : LawfulInvariant host before) (apart : KeepsApart host before label)
    (taken : (approvals host).step before label = some after)
    : LawfulInvariant host after := by
  rcases approvals_step_cases taken with
    ⟨call, request, rfl, idle, rfl⟩ | ⟨call, rfl, running, rfl⟩
      | ⟨call, out, store, stage, rfl, dated, advanced, rfl⟩
  · exact holds.goto (begin_lawful apart)
  · exact holds.goto trivial
  have step := advance_advanced (invariant.stages call) advanced
  have next := advance_lawful dated (holds.stages call) advanced
  obtain ⟨keeps, unshared⟩ := apart
  generalize stood : before.call call = now at step keeps unshared
  generalize went : (store, stage) = result at step
  cases step with
  | quiet change approvals writes _ _ =>
    obtain ⟨rfl, rfl⟩ := Prod.mk.inj went
    have records : ∀ sha256, store.recordOf sha256 = before.store.recordOf sha256 := by
      intro sha256
      rw [Store.recordOf, approvals]
      rfl
    refine ⟨change.sound keeps holds.sound, fun other => ?_, ?_⟩
    · rw [goto_call]
      split
      · exact next.beside fun _ _ _ _ => records _
      · exact (holds.stages other).beside fun _ _ _ _ => records _
    · exact fun write member => holds.writes write (writes ▸ member)
  | published revokes record name own backed =>
    obtain ⟨rfl, rfl⟩ := Prod.mk.inj went
    have lawful := holds.stages call
    rw [stood] at lawful
    have change : FileChange host call before.store false _ :=
      .renameRecord revokes record name own
    refine ⟨change.sound (by simp) holds.sound, fun other => ?_, ?_⟩
    · rw [goto_call]
      split
      · trivial
      case isFalse foreign =>
        refine (holds.stages other).beside fun revoked read at_ there => ?_
        exact recordOf_rename.trans
          (if_neg (unshared revokes record name rfl other foreign read revoked at_ there))
    · intro write member
      rcases List.mem_cons.mp member with rfl | old
      · refine ⟨parseApprovalRecord_serializeRecord.mpr lawful.1, ?_⟩
        rintro read rfl
        exact ⟨backed.2, lawful.2 read rfl⟩
      · exact holds.writes write old

end Flair.Approvals
