import Flair.Approvals.StoreLaws

/-! What the approval store promises over runs, and the runs that break it: two calls that
meet between a revocation's read and its rename, an empty time, and a umask that takes an
owner bit.
-/

namespace Flair.Approvals

open Dynamic Transition

variable {host : Host}

theorem store_invariant {start state : ApprovalState} (initial : (approvals host).initial start)
    (run : (approvals host).Reaches start state)
    : StoreInvariant host start.store state := by
  obtain ⟨-, -, unwritten, idle⟩ := initial
  refine run.preserves (fun _ _ _ holds _ taken => storeStep_invariant holds taken) ?_
  refine ⟨fun call => ?_, fun _ _ held => held, fun _ held known => known held, ?_, ?_, ?_, ?_⟩
  · rw [idle call]
    trivial
  · simp [unwritten]
  · simp [unwritten]
  · intro call record done
    rw [idle call] at done
    contradiction
  · intro sha256
    rw [unwritten]
    rfl

theorem lawful_invariant {start state : ApprovalState} (initial : (approvals host).initial start)
    (run : (approvals host).ReachesUnder (KeepsApart host) start state)
    : LawfulInvariant host state := by
  have started : StoreInvariant host start.store start ∧ LawfulInvariant host start := by
    refine ⟨store_invariant initial .refl, ?_⟩
    obtain ⟨accepted, rooted, unwritten, idle⟩ := initial
    refine ⟨sound_of_accepted accepted rooted, fun call => ?_, by simp [unwritten]⟩
    rw [idle call]
    trivial
  have kept : ∀ before label after,
      StoreInvariant host start.store before ∧ LawfulInvariant host before
        → KeepsApart host before label → (approvals host).step before label = some after
        → StoreInvariant host start.store after ∧ LawfulInvariant host after := by
    rintro before label after ⟨invariant, lawful⟩ apart taken
    exact ⟨storeStep_invariant invariant taken, storeStep_lawful invariant lawful apart taken⟩
  exact (run.preserves kept started).2

theorem copy_stays {before after : ApprovalState} (reached : (approvals host).Reachable before)
    (run : (approvals host).Reaches before after) {sha256 : String} {file : StoredFile Buffer}
    (held : before.store.archives.get sha256 = some file)
    : after.store.archives.get sha256 = some file := by
  obtain ⟨start, initial, toBefore⟩ := reached
  have kept : ∀ middle label next,
      (approvals host).Reaches start middle ∧ middle.store.archives.get sha256 = some file
        → True → (approvals host).step middle label = some next
        → (approvals host).Reaches start next ∧ next.store.archives.get sha256 = some file := by
    rintro middle label next ⟨toMiddle, there⟩ - taken
    have invariant := store_invariant initial toMiddle
    refine ⟨toMiddle.trans (System.ReachesUnder.single trivial taken), ?_⟩
    rcases approvals_step_cases taken with
      ⟨_, _, -, -, rfl⟩ | ⟨_, -, -, rfl⟩ | ⟨call, out, store, stage, -, -, advanced, rfl⟩
    · exact there
    · exact there
    · exact (advance_advanced (invariant.stages call) advanced).beside.archives sha256 file there
  exact (run.preserves kept ⟨toBefore, held⟩).2

/-- In every run a stored copy stays as it is and the records follow the verified copies; when
every step meets the condition, a revocation replaces the record it revokes, every published
record parses back, and every state is one the store opens.
-/
theorem records_follow_verified_copies (host : Host)
    : (∀ before after, (approvals host).Reachable before
        → (approvals host).Reaches before after
        → ∀ sha256 file, before.store.archives.get sha256 = some file
          → after.store.archives.get sha256 = some file)
      ∧ ∀ start state, (approvals host).initial start
        → ((approvals host).Reaches start state → FollowsCopies host start.store state)
          ∧ ((approvals host).ReachesUnder (KeepsApart host) start state
            → (∀ write ∈ state.store.writes, WriteLawful write)
              ∧ openStoreAccepts host state.store = true) := by
  refine ⟨?_, ?_⟩
  · exact fun before after reached run sha256 file held => copy_stays reached run held
  intro start state initial
  refine ⟨fun run => ?_, fun run => ?_⟩
  · have holds := store_invariant initial run
    refine ⟨holds.approved, holds.verified, ?_, holds.returned, holds.records⟩
    rintro call code threw write member rfl
    rw [holds.published write member] at threw
    contradiction
  · have holds := lawful_invariant initial run
    exact ⟨holds.writes, holds.sound.accepted⟩

-- Runs

def zeroDigest : String := String.ofList (List.replicate 64 '0')

def sampleHost (umask : Nat) : Host where
  uid := some 501
  umask _ := umask
  sha256Of _ := zeroDigest
  archiveRefusal _ := none

def emptyStore : ApprovalState where
  store := {
    dir := fun _ => none
    strays := fun _ => []
    archives := []
    approvals := []
    archiveTemps := []
    approvalTemps := []
    writes := [] }
  call _ := .idle

theorem emptyStore_initial (host : Host) : (approvals host).initial emptyStore :=
  ⟨rfl, ⟨fun _ => ⟨rfl, rfl, rfl⟩, fun _ => ⟨rfl, rfl, rfl⟩, fun _ => ⟨rfl, rfl, rfl⟩⟩, rfl,
    fun _ => rfl⟩

def sampleApproval (now : Option String) : StoreRequest :=
  .approve {
    bytes := ⟨[], by decide⟩
    sha256 := zeroDigest
    admission := .sidecar
    operator := "operator"
    archiveName := "backup.json"
    now }

def sampleRevocation : StoreRequest :=
  .revoke { sha256 := zeroDigest, operator := "operator", now := none }

def stepsOf (call count : Nat) : List ApprovalLabel :=
  List.replicate count (.advance call { fails := false, lingers := false, random := 7, now := 0 })

def wholeApproval (now : Option String) : List ApprovalLabel :=
  .begin_ 0 (sampleApproval now) :: stepsOf 0 20

def firstAlone : ApprovalState → ApprovalLabel → Bool
  | _, .begin_ call (.approve input) => call = 0 && input.now ≠ some ""
  | _, .advance call _ => call = 0
  | _, _ => false

def OnlyFirst (state : ApprovalState) : Prop := ∀ call ≠ 0, state.call call = .idle

theorem onlyFirst_goto (state : ApprovalState) {stage : CallStage} (only : OnlyFirst state)
    : OnlyFirst (state.goto 0 stage) := by
  intro call other
  rw [goto_call, if_neg other]
  exact only call other

theorem onlyFirst_keeps {host : Host} {before after : ApprovalState} {label : ApprovalLabel}
    (only : OnlyFirst before) (alone : firstAlone before label = true)
    (taken : (approvals host).step before label = some after)
    : OnlyFirst after := by
  rcases approvals_step_cases taken with
    ⟨call, request, rfl, -, rfl⟩ | ⟨call, rfl, -, rfl⟩
      | ⟨call, out, store, stage, rfl, -, -, rfl⟩
  · cases request with
    | approve input =>
      obtain ⟨first, -⟩ := Bool.and_eq_true_iff.mp alone
      obtain rfl := of_decide_eq_true first
      exact onlyFirst_goto before only
    | _ => contradiction
  · contradiction
  · obtain rfl := of_decide_eq_true alone
    exact onlyFirst_goto { before with store } only

theorem apart_of_firstAlone {state : ApprovalState} {label : ApprovalLabel}
    (only : OnlyFirst state) (alone : firstAlone state label = true)
    : KeepsApart (sampleHost 0o022) state label := by
  cases label with
  | begin_ call request =>
    cases request with
    | approve input =>
      obtain ⟨-, timed⟩ := Bool.and_eq_true_iff.mp alone
      have given : input.now ≠ some "" := of_decide_eq_true timed
      exact given
    | _ => contradiction
  | advance call out =>
    obtain rfl := of_decide_eq_true alone
    refine ⟨fun _ => by decide, fun _ _ _ _ other foreign _ _ _ there => ?_⟩
    rw [only other foreign] at there
    contradiction
  | crash call => contradiction

/-- Witness: a whole approval leaves one record, of a verified copy, that parses back. -/
theorem records_follow_verified_copies_approval
    : ∃ state, (approvals (sampleHost 0o022)).runUnder firstAlone emptyStore (wholeApproval none)
          = some state
        ∧ HasRecord state.store zeroDigest
        ∧ Intact (sampleHost 0o022) state.store zeroDigest
        ∧ (∀ write ∈ state.store.writes, WriteLawful write)
        ∧ openStoreAccepts (sampleHost 0o022) state.store = true := by
  have runs : ((approvals (sampleHost 0o022)).runUnder firstAlone emptyStore
      (wholeApproval none)).any (fun state => (state.store.recordOf zeroDigest).isSome) = true := by
    decide +kernel
  obtain ⟨state, run, recorded⟩ := (Option.any_eq_true _ _).mp runs
  have alone := System.reachesUnder_of_runUnder run
  have initial := emptyStore_initial (sampleHost 0o022)
  have apart := alone.under (fun _ _ _ => onlyFirst_keeps)
    (fun _ _ => apart_of_firstAlone) (fun _ _ => rfl)
  obtain ⟨follows, lawful⟩ :=
    (records_follow_verified_copies (sampleHost 0o022)).2 emptyStore state initial
  exact ⟨state, run, recorded,
    (follows alone.reaches).verified zeroDigest recorded
      (by simp [HasRecord, Store.recordOf, emptyStore]),
    (lawful apart).1, (lawful apart).2⟩

def revokedTwice : List ApprovalLabel :=
  wholeApproval none
    ++ [.begin_ 1 sampleRevocation, .begin_ 2 sampleRevocation]
    ++ stepsOf 1 2 ++ stepsOf 2 2 ++ stepsOf 2 3 ++ stepsOf 1 3

def overwroteRevoked (write : RecordWrite) : Bool :=
  match write.revokes, write.replaced with
  | some read, some content =>
    read.revokedAt.isNone
      && match parseApprovalRecord content zeroDigest with
        | .ok current => current.revokedAt.isSome
        | .error _ => false
  | _, _ => false

/-- A revocation replaces a record that was already revoked; an approval at an empty time
writes a record the parser refuses; and an approval dies between making the store's directory
and setting its mode, so that nothing opens the store again.
-/
theorem records_break_apart
    : (∃ host state write, (approvals host).Reachable state ∧ write ∈ state.store.writes
        ∧ overwroteRevoked write = true)
      ∧ (∃ host state content reason, (approvals host).Reachable state
        ∧ state.store.recordOf zeroDigest = some content
        ∧ parseApprovalRecord content zeroDigest = .error reason)
      ∧ ∃ host state, (approvals host).Reachable state
        ∧ (match state.call 0 with | .crashed => true | _ => false) = true
        ∧ openStoreAccepts host state.store = false := by
  refine ⟨?revoked, ?refused, ?unopened⟩
  case revoked =>
    have runs : ((approvals (sampleHost 0o022)).run emptyStore revokedTwice).any
        (fun state => state.store.writes.any overwroteRevoked) = true := by
      decide +kernel
    obtain ⟨state, run, checks⟩ := (Option.any_eq_true _ _).mp runs
    obtain ⟨write, member, overwrote⟩ := List.any_eq_true.mp checks
    exact ⟨sampleHost 0o022, state, write, System.reachable_of_run (emptyStore_initial _) run,
      member, overwrote⟩
  case refused =>
    have runs : ((approvals (sampleHost 0o022)).run emptyStore (wholeApproval (some ""))).any
        (fun state => (state.store.recordOf zeroDigest).any fun content =>
          !(parseApprovalRecord content zeroDigest).isOk) = true := by
      decide +kernel
    obtain ⟨state, run, checks⟩ := (Option.any_eq_true _ _).mp runs
    obtain ⟨content, held, refused⟩ := (Option.any_eq_true _ _).mp checks
    cases parsed : parseApprovalRecord content zeroDigest with
    | error reason =>
      exact ⟨sampleHost 0o022, state, content, reason,
        System.reachable_of_run (emptyStore_initial _) run, held, parsed⟩
    | ok _ => simp [parsed, Except.isOk, Except.toBool] at refused
  case unopened =>
    have runs : ((approvals (sampleHost 0o277)).run emptyStore
        (.begin_ 0 (sampleApproval none) :: stepsOf 0 3 ++ [.crash 0])).any
        (fun state => (match state.call 0 with | .crashed => true | _ => false)
          && !openStoreAccepts (sampleHost 0o277) state.store) = true := by
      decide +kernel
    obtain ⟨state, run, checks⟩ := (Option.any_eq_true _ _).mp runs
    rw [Bool.and_eq_true, Bool.not_eq_true'] at checks
    exact ⟨sampleHost 0o277, state, System.reachable_of_run (emptyStore_initial _) run, checks⟩

end Flair.Approvals
