import Flair.MemoryLock.Transactions

/-! What every step of a locked transaction keeps: where its receipts, gates and transaction
stand for each point the scope's own code can be at.
-/

namespace Flair.MemoryLock

open Transition

variable {Value Response Fault : Type}

-- Receipts and gates

abbrev TrackedWrite.mark (write : TrackedWrite Value Response Fault)
    : WriteReceipt Response Fault × Option Bool :=
  (write.receipt, write.resumed)

@[simp] theorem TrackedWrite.settle_resumed (write : TrackedWrite Value Response Fault)
    (answer : Settlement Value Response Fault)
    : (write.settle answer).resumed = write.resumed := rfl

@[simp] theorem TrackedWrite.stage_resumed (write : TrackedWrite Value Response Fault)
    : write.stage.resumed = write.resumed := by
  unfold stage
  split <;> rfl

@[simp] theorem TrackedWrite.stage_answer (write : TrackedWrite Value Response Fault)
    : write.stage.answer = write.answer := by
  unfold stage
  split <;> rfl

variable {write : TrackedWrite Value Response Fault}

theorem TrackedWrite.stage_receipt (pending : write.receipt.isPending = true)
    : write.stage.receipt = .staged write.id := by
  unfold stage
  cases receipt : write.receipt with
  | pending => rfl
  | staged id => simp [receipt, WriteReceipt.isPending] at pending
  | refused response => simp [receipt, WriteReceipt.isPending] at pending
  | rejected error => simp [receipt, WriteReceipt.isPending] at pending

theorem TrackedWrite.settle_receipt (answered : write.receipt.isPending = false)
    (answer : Settlement Value Response Fault)
    : (write.settle answer).receipt = write.receipt := by
  cases receipt : write.receipt with
  | pending => simp [receipt, WriteReceipt.isPending] at answered
  | staged id => cases answer <;> simp [settle, receipt]
  | refused response => cases answer <;> simp [settle, receipt]
  | rejected error => cases answer <;> simp [settle, receipt]

theorem TrackedWrite.settle_marks (write : TrackedWrite Value Response Fault)
    (answer : Settlement Value Response Fault)
    : (write.settle answer).receipt.isPending = false
      ∧ (write.settle answer).receipt.isStaged = write.receipt.isStaged := by
  cases receipt : write.receipt <;> cases answer
  all_goals simp [settle, receipt, WriteReceipt.isPending, WriteReceipt.isStaged]

/-- The bookkeeping of the writes: a pending body is still running, the staging order lists
exactly the staged writes, and no other write has a gate to resume.
-/
structure WritesSound (writes : List (TrackedWrite Value Response Fault))
    (staged : List Nat) : Prop where
  running : ∀ write ∈ writes, write.receipt.isPending = true → write.answer = none
  staged
    : ∀ index, index ∈ staged
      ↔ ∃ write, writes[index]? = some write ∧ write.receipt.isStaged = true
  unstaged : ∀ write ∈ writes, write.receipt.isStaged = false → write.resumed = none

theorem WritesSound.nil : WritesSound ([] : List (TrackedWrite Value Response Fault)) [] where
  running := by simp
  staged := by simp
  unstaged := by simp

variable {writes : List (TrackedWrite Value Response Fault)} {staged : List Nat}

theorem WritesSound.track (h : WritesSound writes staged) (id : String)
    : WritesSound (writes ++ [.tracked id]) staged where
  running write member _ := by
    rcases List.mem_append.mp member with old | new
    · apply h.running write old
      assumption
    · rw [List.mem_singleton] at new
      rw [new]
      rfl
  staged index := by
    rw [h.staged]
    constructor
    · rintro ⟨write, found, isStaged⟩
      have within := (List.getElem?_eq_some_iff.mp found).1
      exact ⟨write, by rw [List.getElem?_append_left within, found], isStaged⟩
    · rintro ⟨write, found, isStaged⟩
      rcases Nat.lt_or_ge index writes.length with within | beyond
      · rw [List.getElem?_append_left within] at found
        exact ⟨write, found, isStaged⟩
      rw [List.getElem?_append_right beyond, List.getElem?_singleton] at found
      split at found
      · cases found
        cases isStaged
      · cases found
  unstaged write member isStaged := by
    rcases List.mem_append.mp member with old | new
    · exact h.unstaged write old isStaged
    · rw [List.mem_singleton] at new
      rw [new]
      rfl

variable {index : Nat}

theorem WritesSound.stage (h : WritesSound writes staged) (found : writes[index]? = some write)
    (pending : write.receipt.isPending = true)
    : WritesSound (writes.set index write.stage) (staged ++ [index]) where
  running other member isPending := by
    rcases List.mem_or_eq_of_mem_set member with old | rfl
    · exact h.running other old isPending
    · simp [TrackedWrite.stage_receipt pending, WriteReceipt.isPending] at isPending
  staged other := by
    have within := (List.getElem?_eq_some_iff.mp found).1
    rw [List.mem_append, List.mem_singleton, h.staged]
    by_cases same : other = index
    · subst same
      simp [within, TrackedWrite.stage_receipt pending, WriteReceipt.isStaged]
    · rw [List.getElem?_set_ne (Ne.symm same)]
      simp [same]
  unstaged other member isStaged := by
    rcases List.mem_or_eq_of_mem_set member with old | rfl
    · exact h.unstaged other old isStaged
    · simp [TrackedWrite.stage_receipt pending, WriteReceipt.isStaged] at isStaged

theorem WritesSound.settle (h : WritesSound writes staged) (found : writes[index]? = some write)
    (answer : Settlement Value Response Fault)
    : WritesSound (writes.set index (write.settle answer)) staged where
  running other member isPending := by
    rcases List.mem_or_eq_of_mem_set member with old | rfl
    · exact h.running other old isPending
    · rw [(write.settle_marks answer).1] at isPending
      cases isPending
  staged other := by
    have within := (List.getElem?_eq_some_iff.mp found).1
    rw [h.staged]
    by_cases same : other = index
    · subst same
      simp [within, (write.settle_marks answer).2, (List.getElem?_eq_some_iff.mp found).2]
    · rw [List.getElem?_set_ne (Ne.symm same)]
  unstaged other member isStaged := by
    rcases List.mem_or_eq_of_mem_set member with old | rfl
    · exact h.unstaged other old isStaged
    · rw [(write.settle_marks answer).2] at isStaged
      exact h.unstaged write (List.mem_of_getElem? found) isStaged

-- The scope

namespace ScopeState

def resumedAt (state : ScopeState Value Response Fault) (index : Nat) : Option Bool :=
  state.writes[index]?.bind TrackedWrite.resumed

/-- Nothing the work or its writes did, and no admission while the scope was open, stands
against the commit.
-/
structure Good (state : ScopeState Value Response Fault) : Prop where
  work : ∃ value, state.work = some (.value value)
  writes
    : ∀ write ∈ state.writes, write.receipt.refusal = none ∧ write.receipt.error = none
  admissions : ∀ refused ∈ state.refusals, refused.1 ≠ .opened

structure Untouched (state : ScopeState Value Response Fault) : Prop where
  committed : state.committed = none
  fault : state.transactionError = none
  gates : ∀ write ∈ state.writes, write.resumed = none

structure Ready (state : ScopeState Value Response Fault) (value : Value) : Prop where
  work : state.work = some (.value value)
  failure : state.failure = none
  writes : ∀ write ∈ state.writes, write.receipt.isStaged = true

/-- How a scope has ended: committed and confirmed, rejected by its transaction, or aborted
before it. The gates of a scope that did not report its commit stand at `gate`.
-/
inductive Ended (state : ScopeState Value Response Fault)
    (outcome : ScopeOutcome Value Response Fault) (gate : Option Bool) : Prop where
  | landed (value : Value) (ready : state.Ready value)
      (committed : state.committed = some state.staged)
      (fault : state.transactionError = none)
      (gates : ∀ index ∈ state.staged, state.resumedAt index = some true)
      (reported : ∀ other confirmed, outcome = .committed other confirmed → other = value)
  | rejected (value : Value) (error : ScopeError Fault) (ready : state.Ready value)
      (committed : ∀ rows, state.committed = some rows → rows = state.staged)
      (fault : state.transactionError = some error)
      (gates : ∀ index ∈ state.staged, state.resumedAt index = gate)
      (threw : outcome = .threw error)
  | aborted (bad : ¬ state.Good)
      (committed : state.committed = none)
      (fault : state.transactionError = none)
      (gates : ∀ index ∈ state.staged, state.resumedAt index = gate)
      (reported : ∀ value confirmed, outcome ≠ .committed value confirmed)

def gatesLeft (todo : List Nat) (waiting : Bool) : List Nat :=
  if waiting then todo.tail else todo

def SoundAt (state : ScopeState Value Response Fault)
    : ScopeControl Value Response Fault → Prop
  | .starting => state = .unopened
  | .working => state.phase = .opened ∧ state.work = none ∧ state.Untouched
  | .draining =>
    state.phase = .draining ∧ (∃ answer, state.work = some answer) ∧ state.Untouched
  | .committing value => state.phase = .draining ∧ state.Ready value ∧ state.Untouched
  | .confirming value todo waiting _ =>
    state.phase = .draining ∧ state.Ready value
      ∧ (state.committed = some state.staged ∧ state.transactionError = none)
      ∧ (todo ⊆ state.staged ∧ (waiting = true → todo ≠ []))
      ∧ (∀ write ∈ state.writes, write.resumed ≠ some false)
      ∧ ∀ index ∈ state.staged, index ∉ gatesLeft todo waiting
        → state.resumedAt index = some true
  | .closing outcome =>
    state.phase ≠ .opened ∧ state.drained = true ∧ state.Ended outcome none
  | .returned outcome =>
    state.phase ≠ .opened ∧ state.drained = true ∧ state.Ended outcome (some false)

end ScopeState

open ScopeState

structure ScopeInv (run : ScopeRun Value Response Fault) : Prop where
  writes : WritesSound run.state.writes run.state.staged
  admissions
    : run.state.failure = none ↔ ∀ refused ∈ run.state.refusals, refused.1 ≠ .opened
  control : run.state.SoundAt run.control

-- Writes that changed only what the scope does not see

section

variable {state : ScopeState Value Response Fault}
  {writes : List (TrackedWrite Value Response Fault)}

theorem forall_receipts (property : WriteReceipt Response Fault → Prop)
    (same : writes.map TrackedWrite.receipt = state.writes.map TrackedWrite.receipt)
    (h : ∀ write ∈ state.writes, property write.receipt)
    : ∀ write ∈ writes, property write.receipt := by
  rw [← List.forall_mem_map (f := TrackedWrite.receipt)]
  rw [same, List.forall_mem_map]
  exact h

theorem receipts_of_marks
    (same : writes.map TrackedWrite.mark = state.writes.map TrackedWrite.mark)
    : writes.map TrackedWrite.receipt = state.writes.map TrackedWrite.receipt := by
  have first := congrArg (List.map Prod.fst) same
  simpa only [List.map_map, Function.comp_def] using first

theorem ScopeState.Ready.of_receipts {value : Value} (h : state.Ready value)
    (same : writes.map TrackedWrite.receipt = state.writes.map TrackedWrite.receipt)
    : { state with writes }.Ready value where
  work := h.work
  failure := h.failure
  writes := forall_receipts (fun receipt => receipt.isStaged = true) same h.writes

theorem ScopeState.Good.of_receipts
    (same : writes.map TrackedWrite.receipt = state.writes.map TrackedWrite.receipt)
    (h : { state with writes }.Good)
    : state.Good where
  work := h.work
  writes :=
    forall_receipts (fun receipt => receipt.refusal = none ∧ receipt.error = none) same.symm
      h.writes
  admissions := h.admissions

theorem drained_iff
    : state.drained = true ↔ ∀ write ∈ state.writes, write.receipt.isPending = false := by
  simp [drained]

theorem drained_of_receipts
    (same : writes.map TrackedWrite.receipt = state.writes.map TrackedWrite.receipt)
    (h : state.drained = true)
    : { state with writes }.drained = true := by
  rw [drained_iff] at h ⊢
  exact forall_receipts (fun receipt => receipt.isPending = false) same h

theorem resumedAt_of_marks
    (same : writes.map TrackedWrite.mark = state.writes.map TrackedWrite.mark) (index : Nat)
    : { state with writes }.resumedAt index = state.resumedAt index := by
  have at_index := congrArg (fun marks => marks[index]?.bind Prod.snd) same
  simpa [resumedAt, Option.bind_map] using at_index

theorem ScopeState.Untouched.of_marks (h : state.Untouched)
    (same : writes.map TrackedWrite.mark = state.writes.map TrackedWrite.mark)
    : { state with writes }.Untouched where
  committed := h.committed
  fault := h.fault
  gates := by
    have gates := h.gates
    rw [← List.forall_mem_map (f := TrackedWrite.mark) (P := fun mark => mark.2 = none),
      ← same, List.forall_mem_map] at gates
    exact gates

theorem ScopeState.Ended.of_marks {outcome : ScopeOutcome Value Response Fault}
    {gate : Option Bool} (h : state.Ended outcome gate)
    (same : writes.map TrackedWrite.mark = state.writes.map TrackedWrite.mark)
    : { state with writes }.Ended outcome gate := by
  have receipts := receipts_of_marks same
  cases h with
  | landed value ready committed fault gates reported =>
    refine .landed value (ready.of_receipts receipts) committed fault ?_ reported
    intro index member
    rw [resumedAt_of_marks same]
    exact gates index member
  | rejected value error ready committed fault gates threw =>
    refine .rejected value error (ready.of_receipts receipts) committed fault ?_ threw
    intro index member
    rw [resumedAt_of_marks same]
    exact gates index member
  | aborted bad committed fault gates reported =>
    refine .aborted (fun good => bad (good.of_receipts receipts)) committed fault ?_ reported
    intro index member
    rw [resumedAt_of_marks same]
    exact gates index member

theorem ScopeState.SoundAt.of_marks {control : ScopeControl Value Response Fault}
    (h : state.SoundAt control)
    (same : writes.map TrackedWrite.mark = state.writes.map TrackedWrite.mark)
    : { state with writes }.SoundAt control := by
  have receipts := receipts_of_marks same
  cases control with
  | starting =>
    have empty : writes = [] := by
      rw [h] at same
      exact List.map_eq_nil_iff.mp same
    rw [SoundAt, empty, h]
    rfl
  | working => exact ⟨h.1, h.2.1, h.2.2.of_marks same⟩
  | draining => exact ⟨h.1, h.2.1, h.2.2.of_marks same⟩
  | committing value => exact ⟨h.1, h.2.1.of_receipts receipts, h.2.2.of_marks same⟩
  | confirming value todo waiting seen =>
    obtain ⟨phase, ready, landed, ordered, gates, opened⟩ := h
    refine ⟨phase, ready.of_receipts receipts, landed, ordered, ?_, ?_⟩
    · rw [← List.forall_mem_map (f := TrackedWrite.mark)
        (P := fun mark => mark.2 ≠ some false), ← same, List.forall_mem_map] at gates
      exact gates
    · intro index member left
      rw [resumedAt_of_marks same]
      exact opened index member left
  | closing outcome => exact ⟨h.1, drained_of_receipts receipts h.2.1, h.2.2.of_marks same⟩
  | returned outcome => exact ⟨h.1, drained_of_receipts receipts h.2.1, h.2.2.of_marks same⟩

end

-- The steps of the bodies

variable {state next : ScopeState Value Response Fault}

theorem stageStep_eq_some (h : state.stageStep index = some next)
    : next = state
      ∨ ∃ write, state.writes[index]? = some write ∧ write.answer = none
        ∧ write.receipt.isPending = true
        ∧ next = {
          state with
          writes := state.writes.set index write.stage
          staged := state.staged ++ [index] } := by
  unfold stageStep at h
  cases found : state.writes[index]? with
  | none => simp [found] at h
  | some write =>
    simp only [found] at h
    split at h
    · cases h
    rename_i running
    split at h
    · rename_i pending
      exact Or.inr ⟨write, rfl, by simpa using running, pending,
        (Option.some.inj h).symm⟩
    · exact Or.inl (Option.some.inj h).symm

variable {answer : Settlement Value Response Fault}

theorem settleStep_eq_some (h : state.settleStep index answer = some next)
    : ∃ write, state.writes[index]? = some write ∧ write.answer = none
        ∧ next = { state with writes := state.writes.set index (write.settle answer) } := by
  unfold settleStep at h
  cases found : state.writes[index]? with
  | none => simp [found] at h
  | some write =>
    simp only [found] at h
    split at h
    · cases h
    · rename_i running
      exact ⟨write, rfl, by simpa using running, (Option.some.inj h).symm⟩

theorem marks_set {other : TrackedWrite Value Response Fault} (found : writes[index]? = some write)
    (same : other.mark = write.mark)
    : (writes.set index other).map TrackedWrite.mark = writes.map TrackedWrite.mark := by
  obtain ⟨within, value⟩ := List.getElem?_eq_some_iff.mp found
  rw [List.map_set, same, ← List.map_set, ← value, List.set_getElem_self]

variable {control : ScopeControl Value Response Fault}

theorem ScopeState.SoundAt.drained (h : state.SoundAt control)
    : state.drained = true ∨ ((control = .working ∨ control = .draining) ∧ state.Untouched) := by
  have ready {value : Value} (h : state.Ready value) : state.drained = true := by
    rw [drained_iff]
    intro write member
    have staged := h.writes write member
    cases receipt : write.receipt with
    | pending => simp [receipt, WriteReceipt.isStaged] at staged
    | staged id => rfl
    | refused response => rfl
    | rejected error => rfl
  cases control with
  | starting =>
    rw [h]
    exact Or.inl rfl
  | working => exact Or.inr ⟨Or.inl rfl, h.2.2⟩
  | draining => exact Or.inr ⟨Or.inr rfl, h.2.2⟩
  | committing value => exact Or.inl (ready h.2.1)
  | confirming value todo waiting seen => exact Or.inl (ready h.2.1)
  | closing outcome => exact Or.inl h.2.1
  | returned outcome => exact Or.inl h.2.1

theorem ScopeState.SoundAt.of_untouched (h : state.SoundAt control)
    (running : control = .working ∨ control = .draining) (phase : next.phase = state.phase)
    (work : next.work = state.work) (untouched : next.Untouched)
    : next.SoundAt control := by
  rcases running with rfl | rfl
  · exact ⟨phase.trans h.1, work.trans h.2.1, untouched⟩
  · exact ⟨phase.trans h.1, by simpa only [work] using h.2.1, untouched⟩

theorem ScopeState.Untouched.set (h : state.Untouched) {other : TrackedWrite Value Response Fault}
    (found : state.writes[index]? = some write) (gate : other.resumed = write.resumed)
    (staged : List Nat)
    : { state with writes := state.writes.set index other, staged }.Untouched where
  committed := h.committed
  fault := h.fault
  gates member isMember := by
    rcases List.mem_or_eq_of_mem_set isMember with old | rfl
    · exact h.gates member old
    · rw [gate]
      exact h.gates write (List.mem_of_getElem? found)

variable {run : ScopeRun Value Response Fault}

theorem ScopeInv.stageStep (h : ScopeInv run) (taken : run.state.stageStep index = some state)
    : ScopeInv { run with state } := by
  rcases stageStep_eq_some taken with rfl | ⟨write, found, -, pending, rfl⟩
  · exact h
  refine ⟨h.writes.stage found pending, h.admissions, ?_⟩
  rcases h.control.drained with drained | ⟨running, untouched⟩
  · rw [drained_iff] at drained
    rw [drained write (List.mem_of_getElem? found)] at pending
    cases pending
  · exact h.control.of_untouched running rfl rfl
      (untouched.set found write.stage_resumed _)

theorem ScopeInv.settleStep (h : ScopeInv run)
    (taken : run.state.settleStep index answer = some state)
    : ScopeInv { run with state } := by
  obtain ⟨write, found, -, rfl⟩ := settleStep_eq_some taken
  refine ⟨h.writes.settle found answer, h.admissions, ?_⟩
  rcases h.control.drained with drained | ⟨running, untouched⟩
  · rw [drained_iff] at drained
    have answered := drained write (List.mem_of_getElem? found)
    refine h.control.of_marks (marks_set found ?_)
    rw [TrackedWrite.mark, TrackedWrite.settle_receipt answered]
    rfl
  · have gate : (write.settle answer).resumed = write.resumed := rfl
    exact h.control.of_untouched running rfl rfl (untouched.set found gate _)

-- Admissions

theorem phase_of_admitted {token : Except CapabilityRefusal Unit}
    {sameAcquisition transactionOpen : Bool}
    (h : state.admitLockedMemoryWrite token sameAcquisition transactionOpen = .ok ())
    : state.phase = .opened := by
  unfold admitLockedMemoryWrite at h
  split at h
  · cases h
  split at h
  · cases h
  split at h
  · cases h
  · rename_i admitting
    push Not at admitting
    exact admitting.1

theorem ScopeState.SoundAt.working_of_opened (h : state.SoundAt control)
    (opened : state.phase = .opened)
    : control = .working := by
  cases control with
  | starting =>
    rw [h] at opened
    cases opened
  | working => rfl
  | draining =>
    rw [h.1] at opened
    cases opened
  | committing value =>
    rw [h.1] at opened
    cases opened
  | confirming value todo waiting seen =>
    rw [h.1] at opened
    cases opened
  | closing outcome => exact absurd opened h.1
  | returned outcome => exact absurd opened h.1

theorem ScopeState.Good.of_late {late : ScopePhase × CapabilityRefusal}
    (h : { state with refusals := state.refusals ++ [late] }.Good)
    : state.Good where
  work := h.work
  writes := h.writes
  admissions refused member := h.admissions refused (List.mem_append_left _ member)

variable {outcome : ScopeOutcome Value Response Fault}

theorem ScopeState.Ended.late {gate : Option Bool} (h : state.Ended outcome gate)
    (late : ScopePhase × CapabilityRefusal)
    : { state with refusals := state.refusals ++ [late] }.Ended outcome gate := by
  cases h with
  | landed value ready committed fault gates reported =>
    exact .landed value ⟨ready.work, ready.failure, ready.writes⟩ committed fault gates reported
  | rejected value error ready committed fault gates threw =>
    exact .rejected value error ⟨ready.work, ready.failure, ready.writes⟩ committed fault gates
      threw
  | aborted bad committed fault gates reported =>
    exact .aborted (fun good => bad good.of_late) committed fault gates reported

theorem ScopeState.SoundAt.late (h : state.SoundAt control) (started : control ≠ .starting)
    (late : ScopePhase × CapabilityRefusal)
    : { state with refusals := state.refusals ++ [late] }.SoundAt control := by
  have untouched (h : state.Untouched)
      : { state with refusals := state.refusals ++ [late] }.Untouched :=
    ⟨h.committed, h.fault, h.gates⟩
  have ready {value : Value} (h : state.Ready value)
      : { state with refusals := state.refusals ++ [late] }.Ready value :=
    ⟨h.work, h.failure, h.writes⟩
  cases control with
  | starting => exact absurd rfl started
  | working => exact ⟨h.1, h.2.1, untouched h.2.2⟩
  | draining => exact ⟨h.1, h.2.1, untouched h.2.2⟩
  | committing value => exact ⟨h.1, ready h.2.1, untouched h.2.2⟩
  | confirming value todo waiting seen => exact ⟨h.1, ready h.2.1, h.2.2⟩
  | closing outcome => exact ⟨h.1, h.2.1, h.2.2.late late⟩
  | returned outcome => exact ⟨h.1, h.2.1, h.2.2.late late⟩

theorem ScopeInv.enter (h : ScopeInv run) (started : run.control ≠ .starting) (id : String)
    (token : Except CapabilityRefusal Unit) (sameAcquisition transactionOpen : Bool)
    : ScopeInv {
        run with state := run.state.enter id token sameAcquisition transactionOpen } := by
  unfold ScopeState.enter
  cases admitted : run.state.admitLockedMemoryWrite token sameAcquisition transactionOpen with
  | ok _ =>
    have working := h.control.working_of_opened (phase_of_admitted admitted)
    refine ⟨h.writes.track id, h.admissions, ?_⟩
    have sound := h.control
    simp only [working] at sound ⊢
    obtain ⟨opened, running, untouched⟩ := sound
    refine ⟨opened, running, untouched.committed, untouched.fault, ?_⟩
    intro write member
    rcases List.mem_append.mp member with old | new
    · exact untouched.gates write old
    · rw [List.mem_singleton.mp new]
      rfl
  | error refusal =>
    by_cases opened : run.state.phase = .opened
    · simp only [opened, if_true]
      refine ⟨h.writes, ?_, ?_⟩
      · constructor
        · intro none
          cases failure : run.state.failure <;> simp [failure] at none
        · intro none
          exact absurd rfl (none _ (List.mem_append_right _ (List.mem_singleton_self _)))
      · have working := h.control.working_of_opened opened
        have sound := h.control
        simp only [working] at sound ⊢
        obtain ⟨-, running, untouched⟩ := sound
        exact ⟨rfl, running, untouched.committed, untouched.fault, untouched.gates⟩
    · simp only [opened, if_false]
      refine ⟨h.writes, ?_, h.control.late started _⟩
      rw [h.admissions]
      simp [or_imp, forall_and, opened]

-- The scope's own steps

theorem resumedAt_resumeAll (found : state.writes[index]? = some write) (committed : Bool)
    (chosen : List Nat)
    : { state with writes := state.resumeAll committed chosen }.resumedAt index
        = if index ∈ chosen then some (write.resumed.getD committed) else write.resumed := by
  simp only [resumedAt, resumeAll, List.getElem?_mapIdx, found, Option.map_some,
    Option.bind_some]
  split
  · cases gate : write.resumed <;> simp [TrackedWrite.resume, gate]
  · rfl

theorem receipts_resumeAll (state : ScopeState Value Response Fault) (committed : Bool)
    (chosen : List Nat)
    : (state.resumeAll committed chosen).map TrackedWrite.receipt
        = state.writes.map TrackedWrite.receipt := by
  apply List.ext_getElem?
  intro index
  simp only [resumeAll, List.getElem?_map, List.getElem?_mapIdx, Option.map_map]
  congr 1
  funext write
  simp only [Function.comp_apply]
  split <;> rfl

theorem WritesSound.resumeAll (h : WritesSound state.writes state.staged) (committed : Bool)
    {chosen : List Nat} (known : chosen ⊆ state.staged)
    : WritesSound (state.resumeAll committed chosen) state.staged where
  running write member pending := by
    obtain ⟨index, within, rfl⟩ := List.mem_mapIdx.mp member
    have before := h.running state.writes[index] (List.getElem_mem within)
    by_cases known : index ∈ chosen
    · simp only [known, if_true] at pending ⊢
      exact before pending
    · simp only [known, if_false] at pending ⊢
      exact before pending
  staged index := by
    rw [h.staged]
    simp only [ScopeState.resumeAll, List.getElem?_mapIdx, Option.map_eq_some_iff]
    constructor
    · rintro ⟨write, found, isStaged⟩
      refine ⟨_, ⟨write, found, rfl⟩, ?_⟩
      split <;> exact isStaged
    · rintro ⟨_, ⟨write, found, rfl⟩, isStaged⟩
      refine ⟨write, found, ?_⟩
      split at isStaged <;> exact isStaged
  unstaged write member isStaged := by
    obtain ⟨index, within, rfl⟩ := List.mem_mapIdx.mp member
    have before := h.unstaged state.writes[index] (List.getElem_mem within)
    split at isStaged
    · rename_i resumed
      obtain ⟨other, found, staging⟩ := (h.staged index).mp (known resumed)
      obtain ⟨_, rfl⟩ := List.getElem?_eq_some_iff.mp found
      exact absurd (staging.symm.trans isStaged) (by decide)
    · rename_i other
      simp only [other, if_false]
      exact before isStaged

theorem isStaged_of_settled {receipt : WriteReceipt Response Fault}
    (answered : receipt.isPending = false) (accepted : receipt.refusal = none)
    (clean : receipt.error = none)
    : receipt.isStaged = true := by
  cases receipt with
  | pending => cases answered
  | staged id => rfl
  | refused response => cases accepted
  | rejected error => cases clean

theorem clean_of_isStaged {receipt : WriteReceipt Response Fault}
    (staged : receipt.isStaged = true)
    : receipt.refusal = none ∧ receipt.error = none := by
  cases receipt with
  | staged id => exact ⟨rfl, rfl⟩
  | pending => cases staged
  | refused response => cases staged
  | rejected error => cases staged

variable {value : Value}

theorem ScopeState.Ready.good (h : state.Ready value)
    (admissions : state.failure = none ↔ ∀ refused ∈ state.refusals, refused.1 ≠ .opened)
    : state.Good where
  work := ⟨value, h.work⟩
  writes write member := clean_of_isStaged (h.writes write member)
  admissions := admissions.mp h.failure

theorem ready_of_abortOutcome (drained : state.drained = true)
    (work : state.work = some (.value value)) (h : state.abortOutcome (.value value) = none)
    : state.Ready value := by
  simp only [abortOutcome] at h
  split at h
  · cases h
  · cases h
  rename_i failure clean
  rw [Option.map_eq_none_iff] at h
  rw [List.findSome?_eq_none_iff] at clean h
  rw [drained_iff] at drained
  exact ⟨work, failure, fun write member =>
    isStaged_of_settled (drained write member) (h write member) (clean write member)⟩

theorem bad_of_abortOutcome (work : state.work = some answer)
    (admissions : state.failure = none ↔ ∀ refused ∈ state.refusals, refused.1 ≠ .opened)
    (h : state.abortOutcome answer = some outcome)
    : ¬ state.Good ∧ ∀ value confirmed, outcome ≠ .committed value confirmed := by
  have failed {error : ScopeError Fault} (failure : state.failure = some error)
      : ¬ state.Good := by
    intro good
    rw [admissions.mpr good.admissions] at failure
    cases failure
  have rejected {error : ScopeError Fault}
      (found : state.writes.findSome? (fun write => write.receipt.error) = some error)
      : ¬ state.Good := by
    intro good
    obtain ⟨write, member, isError⟩ := List.exists_of_findSome?_eq_some found
    rw [(good.writes write member).2] at isError
    cases isError
  cases answer with
  | rejected fault =>
    cases h
    refine ⟨?_, fun _ _ same => by cases same⟩
    rintro ⟨⟨value, fulfilled⟩, -, -⟩
    rw [work] at fulfilled
    cases fulfilled
  | response response =>
    have bad : ¬ state.Good := by
      rintro ⟨⟨value, fulfilled⟩, -, -⟩
      rw [work] at fulfilled
      cases fulfilled
    refine ⟨bad, ?_⟩
    simp only [abortOutcome] at h
    split at h <;> (obtain rfl := Option.some.inj h; intro _ _ same; cases same)
  | value value =>
    simp only [abortOutcome] at h
    split at h
    · rename_i error failure
      cases h
      exact ⟨failed failure, fun _ _ same => by cases same⟩
    · rename_i error failure found
      cases h
      exact ⟨rejected found, fun _ _ same => by cases same⟩
    · obtain ⟨response, found, rfl⟩ := Option.map_eq_some_iff.mp h
      refine ⟨?_, fun _ _ same => by cases same⟩
      intro good
      obtain ⟨write, member, isRefusal⟩ := List.exists_of_findSome?_eq_some found
      rw [(good.writes write member).1] at isRefusal
      cases isRefusal

theorem ScopeState.Untouched.resumedAt (h : state.Untouched) (index : Nat)
    : state.resumedAt index = none := by
  cases found : state.writes[index]? with
  | none => simp [ScopeState.resumedAt, found]
  | some write =>
    simp [ScopeState.resumedAt, found, h.gates write (List.mem_of_getElem? found)]

theorem ScopeInv.decide (h : ScopeInv run) {next : ScopeRun Value Response Fault}
    (taken : scopeStep run .decide = some next)
    : ScopeInv next := by
  simp only [scopeStep] at taken
  split at taken
  · rename_i answer control work drained
    have sound := h.control
    rw [control] at sound
    obtain ⟨phase, -, untouched⟩ := sound
    split at taken
    · rename_i value nothing
      cases taken
      exact ⟨h.writes, h.admissions,
        phase, ready_of_abortOutcome drained work nothing, untouched⟩
    · cases taken
    · rename_i outcome aborts
      cases taken
      obtain ⟨bad, reported⟩ := bad_of_abortOutcome work h.admissions aborts
      refine ⟨h.writes, h.admissions, ?_, drained, ?_⟩
      · rw [ScopeRun.goto, phase]
        decide
      · exact .aborted bad untouched.committed untouched.fault
          (fun index _ => untouched.resumedAt index) reported
  · cases taken

theorem ScopeInv.settleCommit (h : ScopeInv run) (control : run.control = .committing value)
    (answer : TransactionEnd Fault)
    : ScopeInv (run.settleCommit value answer) := by
  have drained := h.control.drained
  have sound := h.control
  rw [control] at sound
  obtain ⟨phase, ready, untouched⟩ := sound
  cases answer with
  | committed =>
    refine ⟨h.writes, h.admissions, phase, ⟨ready.work, ready.failure, ready.writes⟩,
      ⟨rfl, untouched.fault⟩, ⟨List.Subset.refl _, by simp⟩, ?_, ?_⟩
    · intro write member
      rw [untouched.gates write member]
      simp
    · intro index member left
      exact absurd member left
  | rejected fault landed =>
    refine ⟨h.writes, h.admissions, ?_, ?_, ?_⟩
    · change run.state.phase ≠ .opened
      rw [phase]
      decide
    · rcases drained with drained | ⟨running, -⟩
      · exact drained
      · simp [control] at running
    · refine .rejected value fault ⟨ready.work, ready.failure, ready.writes⟩ ?_ rfl
        (fun index _ => untouched.resumedAt index) rfl
      intro rows committed
      cases landed
      · cases committed
      · exact (Option.some.inj committed).symm

variable {seen : Confirmations Value Response Fault}

theorem ScopeInv.confirm (h : ScopeInv run) {rest : List Nat}
    (control : run.control = .confirming value (index :: rest) false seen)
    : ScopeInv {
        control := .confirming value (index :: rest) true seen
        state := { run.state with writes := run.state.resumeAll true [index] } } := by
  have sound := h.control
  rw [control] at sound
  obtain ⟨phase, ready, landed, ⟨within, -⟩, gates, opened⟩ := sound
  have receipts := receipts_resumeAll run.state true [index]
  refine ⟨h.writes.resumeAll true ?_, h.admissions, phase, ready.of_receipts receipts, landed,
    ⟨within, by simp⟩, ?_, ?_⟩
  · intro other member
    rw [List.mem_singleton.mp member]
    exact within List.mem_cons_self
  · intro write member
    obtain ⟨other, known, rfl⟩ := List.mem_mapIdx.mp member
    have before := gates run.state.writes[other] (List.getElem_mem known)
    split
    · cases gate : run.state.writes[other].resumed with
      | none => simp [TrackedWrite.resume, gate]
      | some answer =>
        rw [gate] at before
        simpa [TrackedWrite.resume, gate] using before
    · exact before
  · intro other member left
    obtain ⟨write, found, -⟩ := (h.writes.staged other).mp member
    rw [resumedAt_resumeAll found]
    have unopened := gates write (List.mem_of_getElem? found)
    split
    · cases gate : write.resumed with
      | none => rfl
      | some answer =>
        cases answer
        · exact absurd gate unopened
        · rfl
    · rename_i different
      have later : other ∉ gatesLeft (index :: rest) false := by
        rintro (_ | ⟨_, member⟩)
        · exact different (List.mem_singleton_self _)
        · exact left member
      simpa [resumedAt, found] using opened other member later

theorem ScopeInv.confirmed (h : ScopeInv run) {rest : List Nat}
    (control : run.control = .confirming value (index :: rest) true seen)
    (seenNext : Confirmations Value Response Fault)
    : ScopeInv (run.goto (.confirming value rest false seenNext)) := by
  have sound := h.control
  rw [control] at sound
  obtain ⟨phase, ready, landed, ⟨within, -⟩, gates, opened⟩ := sound
  refine ⟨h.writes, h.admissions, phase, ready, landed, ⟨?_, by simp⟩, gates, opened⟩
  exact fun other member => within (List.mem_cons_of_mem _ member)

theorem Confirmations.outcome_value {other : Value} {confirmed : List Value}
    (h : seen.outcome value = .committed other confirmed)
    : other = value := by
  unfold Confirmations.outcome at h
  split at h
  · cases h
  · cases h
  · cases h
    rfl

theorem ScopeInv.report (h : ScopeInv run) (control : run.control = .confirming value [] false seen)
    : ScopeInv (run.goto (.closing (seen.outcome value))) := by
  have drained := h.control.drained
  have sound := h.control
  rw [control] at sound
  obtain ⟨phase, ready, ⟨committed, fault⟩, -, -, opened⟩ := sound
  refine ⟨h.writes, h.admissions, ?_, ?_, ?_⟩
  · rw [ScopeRun.goto, phase]
    decide
  · rcases drained with drained | ⟨running, -⟩
    · exact drained
    · simp [control] at running
  · exact .landed value ready committed fault
      (fun index member => opened index member (by simp [gatesLeft]))
      (fun _ _ same => seen.outcome_value same)

theorem ScopeInv.close (h : ScopeInv run) (control : run.control = .closing outcome)
    : ScopeInv {
        control := .returned outcome
        state := {
          run.state with
          phase := .closed
          writes := run.state.resumeAll false run.state.staged } } := by
  have sound := h.control
  rw [control] at sound
  obtain ⟨-, drained, ended⟩ := sound
  have receipts := receipts_resumeAll run.state false run.state.staged
  have resumed {gate : Option Bool} {index : Nat} (member : index ∈ run.state.staged)
      (before : run.state.resumedAt index = gate)
      : { run.state with writes := run.state.resumeAll false run.state.staged }.resumedAt index
          = some (gate.getD false) := by
    obtain ⟨write, found, -⟩ := (h.writes.staged index).mp member
    rw [resumedAt_resumeAll found, if_pos member, ← before]
    simp [resumedAt, found]
  refine ⟨h.writes.resumeAll false (List.Subset.refl _), h.admissions, by simp,
    drained_of_receipts receipts drained, ?_⟩
  cases ended with
  | landed value ready committed fault gates reported =>
    have ready := ready.of_receipts receipts
    exact .landed value ⟨ready.work, ready.failure, ready.writes⟩ committed fault
      (fun index member => resumed member (gates index member)) reported
  | rejected value error ready committed fault gates threw =>
    have ready := ready.of_receipts receipts
    exact .rejected value error ⟨ready.work, ready.failure, ready.writes⟩ committed fault
      (fun index member => resumed member (gates index member)) threw
  | aborted bad committed fault gates reported =>
    refine .aborted ?_ committed fault
      (fun index member => resumed member (gates index member)) reported
    intro good
    exact bad (.of_receipts receipts ⟨good.work, good.writes, good.admissions⟩)

theorem unopened_inv (phase : ScopePhase) (h : { ScopeState.unopened with phase }.SoundAt control)
    : ScopeInv { control, state := { ScopeState.unopened with phase } } :=
  ⟨WritesSound.nil, by simp [unopened], h⟩

theorem ScopeInv.begin (h : ScopeInv run) (control : run.control = .starting)
    : ScopeInv { control := .working, state := { run.state with phase := .opened } }
      ∧ ∀ error, ScopeInv (run.goto (.closing (.threw error))) := by
  have sound : run.state = .unopened := by
    have sound := h.control
    rw [control] at sound
    exact sound
  constructor
  · rw [sound]
    exact unopened_inv .opened ⟨rfl, rfl, rfl, rfl, by simp [unopened]⟩
  intro fault
  rw [ScopeRun.goto, sound]
  refine unopened_inv .closed ⟨by simp, rfl, ?_⟩
  refine .aborted ?_ rfl rfl (by simp [unopened]) (fun _ _ same => by cases same)
  rintro ⟨⟨value, fulfilled⟩, -, -⟩
  cases fulfilled

theorem ScopeInv.step {next : ScopeRun Value Response Fault} (h : ScopeInv run)
    {label : ScopeLabel Value Response Fault} (taken : scopeStep run label = some next)
    : ScopeInv next := by
  cases label with
  | begin fault =>
    simp only [scopeStep] at taken
    split at taken
    · rename_i control
      cases taken
      exact (h.begin control).1
    · rename_i control
      cases taken
      exact (h.begin control).2 _
    · cases taken
  | enter id token sameAcquisition transactionOpen =>
    simp only [scopeStep] at taken
    split at taken
    · cases taken
    · rename_i started
      cases taken
      exact h.enter started id token sameAcquisition transactionOpen
  | stage index =>
    obtain ⟨state, staged, rfl⟩ := Option.map_eq_some_iff.mp taken
    exact h.stageStep staged
  | settle index answer =>
    obtain ⟨state, settled, rfl⟩ := Option.map_eq_some_iff.mp taken
    exact h.settleStep settled
  | settleWork answer =>
    simp only [scopeStep] at taken
    split at taken
    · rename_i control
      cases taken
      have sound := h.control
      rw [control] at sound
      obtain ⟨-, -, untouched⟩ := sound
      exact ⟨h.writes, h.admissions, rfl, ⟨answer, rfl⟩,
        untouched.committed, untouched.fault, untouched.gates⟩
    · cases taken
  | decide => exact h.decide taken
  | commit answer =>
    simp only [scopeStep] at taken
    split at taken
    · rename_i control
      cases taken
      exact h.settleCommit control answer
    · cases taken
  | confirm =>
    simp only [scopeStep] at taken
    split at taken
    · rename_i control
      cases taken
      exact h.confirm control
    · cases taken
  | confirmed =>
    simp only [scopeStep] at taken
    split at taken
    · rename_i control
      obtain ⟨answer, -, rfl⟩ := Option.map_eq_some_iff.mp taken
      exact h.confirmed control _
    · cases taken
  | report =>
    simp only [scopeStep] at taken
    split at taken
    · rename_i control
      cases taken
      exact h.report control
    · cases taken
  | close =>
    simp only [scopeStep] at taken
    split at taken
    · rename_i control
      cases taken
      exact h.close control
    · cases taken

theorem ScopeInv.of_reachable (reached : lockedTransaction.Reachable run)
    : ScopeInv run := by
  refine reached.invariant ?_ (fun _ _ _ h taken => h.step taken)
  rintro start rfl
  exact unopened_inv .closed rfl

end Flair.MemoryLock
