import Flair.Foundations.Settling
import Flair.MemoryLock.ScopeInvariant

/-! Atomicity of the locked Memory transaction: it commits exactly when its work and its writes
allow it, resumes every staged body with what happened, and always answers.
-/

namespace Flair.MemoryLock

open Transition ScopeState

variable {Value Response Fault : Type}

-- Progress

def ScopeLabel.isEnter : ScopeLabel Value Response Fault → Bool
  | .enter _ _ _ _ => true
  | _ => false

/-- The steps the scope's own code takes. -/
def ScopeLabel.ofScope : ScopeLabel Value Response Fault → Bool
  | .begin _ | .decide | .commit _ | .confirm | .confirmed | .report | .close => true
  | .enter _ _ _ _ | .stage _ | .settle _ _ | .settleWork _ => false

/-- Something other than an admission happens: the scope, its work or a body moves on. -/
def ScopeRun.Progress (run next : ScopeRun Value Response Fault) : Prop :=
  next ≠ run ∧ ∃ label, label.isEnter = false ∧ scopeStep run label = some next

def ScopeRun.Returned (run : ScopeRun Value Response Fault) : Prop :=
  ∃ outcome, run.control = .returned outcome

/-- What a body can still do: stage, which adds a confirmation, and settle. -/
def TrackedWrite.left (write : TrackedWrite Value Response Fault) : Nat :=
  if write.answer.isSome then 0 else if write.receipt.isPending then 4 else 1

def bodiesLeft : List (TrackedWrite Value Response Fault) → Nat
  | [] => 0
  | write :: rest => write.left + bodiesLeft rest

@[simp] def ScopeRun.stepsLeft (run : ScopeRun Value Response Fault) : Nat :=
  match run.control with
  | .starting => 2 * run.state.staged.length + 7
  | .working => 2 * run.state.staged.length + 6
  | .draining => 2 * run.state.staged.length + 5
  | .committing _ => 2 * run.state.staged.length + 4
  | .confirming _ todo waiting _ => 2 * todo.length + if waiting then 2 else 3
  | .closing _ => 1
  | .returned _ => 0

@[simp] def ScopeRun.rank (run : ScopeRun Value Response Fault) : Nat :=
  run.stepsLeft + bodiesLeft run.state.writes

variable {index : Nat} {write : TrackedWrite Value Response Fault}

theorem bodiesLeft_set {writes : List (TrackedWrite Value Response Fault)}
    (found : writes[index]? = some write) (other : TrackedWrite Value Response Fault)
    : bodiesLeft (writes.set index other) + write.left = bodiesLeft writes + other.left := by
  induction writes generalizing index with
  | nil => simp at found
  | cons head rest ih =>
    cases index with
    | zero =>
      obtain rfl : head = write := by simpa using found
      simp only [List.set_cons_zero, bodiesLeft]
      omega
    | succ index =>
      have tail := ih (by simpa using found)
      simp only [List.set_cons_succ, bodiesLeft]
      omega

theorem bodiesLeft_resumeAll (state : ScopeState Value Response Fault) (committed : Bool)
    (chosen : List Nat)
    : bodiesLeft (state.resumeAll committed chosen) = bodiesLeft state.writes := by
  have general (writes : List (TrackedWrite Value Response Fault))
      (f : Nat → TrackedWrite Value Response Fault → TrackedWrite Value Response Fault)
      (same : ∀ index write, (f index write).left = write.left)
      : bodiesLeft (writes.mapIdx f) = bodiesLeft writes := by
    induction writes generalizing f with
    | nil => rfl
    | cons write rest ih =>
      rw [List.mapIdx_cons, bodiesLeft, bodiesLeft, same,
        ih (fun index => f (index + 1)) (fun index other => same (index + 1) other)]
  refine general state.writes _ ?_
  intro index write
  split <;> rfl

variable {run next : ScopeRun Value Response Fault}

theorem rank_ofScope {label : ScopeLabel Value Response Fault} (own : label.ofScope = true)
    (taken : scopeStep run label = some next)
    : next.rank < run.rank := by
  cases label with
  | enter id token sameAcquisition transactionOpen => cases own
  | stage index => cases own
  | settle index answer => cases own
  | settleWork answer => cases own
  | begin fault =>
    simp only [scopeStep] at taken
    split at taken
    · rename_i control
      cases taken
      simp [control]
    · rename_i control
      cases taken
      simp only [ScopeRun.rank, ScopeRun.stepsLeft, ScopeRun.goto, control]
      omega
    · cases taken
  | decide =>
    simp only [scopeStep] at taken
    split at taken
    · rename_i control _ _
      split at taken
      · cases taken
        simp [ScopeRun.goto, control]
      · cases taken
      · cases taken
        simp only [ScopeRun.rank, ScopeRun.stepsLeft, ScopeRun.goto, control]
        omega
    · cases taken
  | commit answer =>
    simp only [scopeStep] at taken
    split at taken
    · rename_i control
      cases taken
      cases answer with
      | committed =>
        simp [ScopeRun.settleCommit, control]
      | rejected fault landed =>
        simp only [ScopeRun.rank, ScopeRun.stepsLeft, ScopeRun.settleCommit, control]
        omega
    · cases taken
  | confirm =>
    simp only [scopeStep] at taken
    split at taken
    · rename_i control
      cases taken
      simp [control, bodiesLeft_resumeAll]
    · cases taken
  | confirmed =>
    simp only [scopeStep] at taken
    split at taken
    · rename_i control
      obtain ⟨answer, -, rfl⟩ := Option.map_eq_some_iff.mp taken
      simp only [ScopeRun.rank, ScopeRun.stepsLeft, ScopeRun.goto, control,
        List.length_cons, if_true, Bool.false_eq_true, if_false]
      omega
    · cases taken
  | report =>
    simp only [scopeStep] at taken
    split at taken
    · rename_i control
      cases taken
      simp [ScopeRun.goto, control]
    · cases taken
  | close =>
    simp only [scopeStep] at taken
    split at taken
    · rename_i control
      cases taken
      simp [control, bodiesLeft_resumeAll]
    · cases taken

theorem rank_of_progress (h : run.Progress next)
    : next.rank < run.rank := by
  obtain ⟨moved, label, notEnter, taken⟩ := h
  cases own : label.ofScope with
  | true => exact rank_ofScope own taken
  | false =>
    cases label with
    | enter id token sameAcquisition transactionOpen => cases notEnter
    | stage index =>
      obtain ⟨state, staged, rfl⟩ := Option.map_eq_some_iff.mp taken
      rcases stageStep_eq_some staged with rfl | ⟨write, found, running, pending, rfl⟩
      · exact absurd rfl moved
      have before : write.left = 4 := by simp [TrackedWrite.left, running, pending]
      have after : write.stage.left = 1 := by
        simp [TrackedWrite.left, running, TrackedWrite.stage_receipt pending,
          WriteReceipt.isPending]
      have bodies := bodiesLeft_set found write.stage
      have steps : ScopeRun.stepsLeft {
            run with
            state := {
              run.state with
              writes := run.state.writes.set index write.stage
              staged := run.state.staged ++ [index] } }
          ≤ run.stepsLeft + 2 := by
        simp only [ScopeRun.stepsLeft, List.length_append, List.length_singleton]
        split <;> omega
      simp only [ScopeRun.rank] at steps ⊢
      omega
    | settle index answer =>
      obtain ⟨state, settled, rfl⟩ := Option.map_eq_some_iff.mp taken
      obtain ⟨write, found, running, rfl⟩ := settleStep_eq_some settled
      have before : 0 < write.left := by
        simp only [TrackedWrite.left, running, Option.isSome_none, Bool.false_eq_true,
          if_false]
        split <;> decide
      have after : (write.settle answer).left = 0 := rfl
      have bodies := bodiesLeft_set found (write.settle answer)
      simp only [ScopeRun.rank, ScopeRun.stepsLeft] at bodies ⊢
      omega
    | settleWork answer =>
      simp only [scopeStep] at taken
      split at taken
      · rename_i control
        cases taken
        simp [control]
      · cases taken
    | begin fault => cases own
    | decide => cases own
    | commit answer => cases own
    | confirm => cases own
    | confirmed => cases own
    | report => cases own
    | close => cases own

theorem ScopeInv.advances (h : ScopeInv run) (settled : run.control ≠ .working)
    (answered : ∀ write ∈ run.state.writes, write.answer ≠ none) (unreturned : ¬ run.Returned)
    : ∃ label, label.ofScope = true ∧ (scopeStep run label).isSome = true := by
  have sound := h.control
  cases control : run.control with
  | starting => exact ⟨.begin none, rfl, by simp [scopeStep, control]⟩
  | working => exact absurd control settled
  | draining =>
    rw [control] at sound
    obtain ⟨-, ⟨answer, work⟩, -⟩ := sound
    have drained : run.state.drained = true := by
      rw [drained_iff]
      intro write member
      cases pending : write.receipt.isPending with
      | false => rfl
      | true => exact absurd (h.writes.running write member pending) (answered write member)
    refine ⟨.decide, rfl, ?_⟩
    simp only [scopeStep, control, work, drained]
    cases decided : run.state.abortOutcome answer with
    | some outcome => rfl
    | none =>
      cases answer with
      | value value => rfl
      | response response =>
        simp only [abortOutcome] at decided
        split at decided <;> cases decided
      | rejected error => cases decided
  | committing value => exact ⟨.commit .committed, rfl, by simp [scopeStep, control]⟩
  | confirming value todo waiting seen =>
    rw [control] at sound
    obtain ⟨-, -, -, ⟨within, awaited⟩, -, -⟩ := sound
    cases todo with
    | nil =>
      cases waiting with
      | true => exact absurd rfl (awaited rfl)
      | false => exact ⟨.report, rfl, by simp [scopeStep, control]⟩
    | cons index rest =>
      cases waiting with
      | false => exact ⟨.confirm, rfl, by simp [scopeStep, control]⟩
      | true =>
        obtain ⟨write, found, -⟩ := (h.writes.staged index).mp (within List.mem_cons_self)
        have answer := answered write (List.mem_of_getElem? found)
        refine ⟨.confirmed, rfl, ?_⟩
        simpa [scopeStep, control, found] using Option.isSome_iff_ne_none.mpr answer
  | closing outcome => exact ⟨.close, rfl, by simp [scopeStep, control]⟩
  | returned outcome => exact absurd ⟨outcome, control⟩ unreturned

theorem progress_of_working (control : run.control = .working)
    : ∃ next, run.Progress next := by
  let answer : Settlement Value Response Fault := .rejected .neitherStagedNorRefused
  have taken : scopeStep run (.settleWork answer) = some {
      control := .draining
      state := { run.state with phase := .draining, work := some answer } } := by
    simp [scopeStep, control]
  refine ⟨_, ?_, .settleWork answer, rfl, taken⟩
  intro same
  have moved := congrArg ScopeRun.control same
  simp [control] at moved

theorem progress_of_running (found : run.state.writes[index]? = some write)
    (running : write.answer = none)
    : ∃ next, run.Progress next := by
  let answer : Settlement Value Response Fault := .rejected .neitherStagedNorRefused
  have taken : scopeStep run (.settle index answer) = some {
      run with
      state := {
        run.state with writes := run.state.writes.set index (write.settle answer) } } := by
    simp [scopeStep, ScopeState.settleStep, found, running]
  refine ⟨_, ?_, .settle index answer, rfl, taken⟩
  intro same
  have within := (List.getElem?_eq_some_iff.mp found).1
  have after := congrArg (fun run => (ScopeRun.state run).writes[index]?) same
  simp only [List.getElem?_set_self within, found] at after
  have settled := congrArg TrackedWrite.answer (Option.some.inj after)
  rw [running] at settled
  cases settled

theorem ScopeInv.returned_of_stuck (h : ScopeInv run) (stuck : ∀ next, ¬ run.Progress next)
    : run.Returned := by
  by_contra unreturned
  have settled : run.control ≠ .working := by
    intro control
    obtain ⟨next, moves⟩ := progress_of_working control
    exact stuck next moves
  have answered : ∀ write ∈ run.state.writes, write.answer ≠ none := by
    intro write member running
    obtain ⟨index, found⟩ := List.mem_iff_getElem?.mp member
    obtain ⟨next, moves⟩ := progress_of_running found running
    exact stuck next moves
  obtain ⟨label, own, enabled⟩ := h.advances settled answered unreturned
  obtain ⟨next, taken⟩ := Option.isSome_iff_exists.mp enabled
  have notEnter : label.isEnter = false := by
    cases label with
    | enter id token sameAcquisition transactionOpen => cases own
    | _ => rfl
  refine stuck next ⟨?_, label, notEnter, taken⟩
  rintro rfl
  exact Nat.lt_irrefl _ (rank_ofScope own taken)

theorem ScopeInv.settles (h : ScopeInv run)
    : Settles ScopeRun.Progress ScopeRun.Returned run := by
  refine Settles.of_rank ScopeRun.rank ?_ ?_ ?_ h
  · rintro before after sound ⟨-, label, -, taken⟩
    exact sound.step taken
  · intro before after _ moves
    exact rank_of_progress moves
  · intro last sound stuck
    exact sound.returned_of_stuck stuck

-- Gates

theorem resumedAt_set {state : ScopeState Value Response Fault}
    {other : TrackedWrite Value Response Fault} (found : state.writes[index]? = some write)
    (gate : other.resumed = write.resumed) (wanted : Nat)
    : ((state.writes.set index other)[wanted]?).bind TrackedWrite.resumed
        = state.resumedAt wanted := by
  have within := (List.getElem?_eq_some_iff.mp found).1
  by_cases same : wanted = index
  · subst same
    simp [resumedAt, List.getElem?_set_self within, found, gate]
  · rw [List.getElem?_set_ne (Ne.symm same), resumedAt]

theorem resumedAt_step {label : ScopeLabel Value Response Fault}
    (taken : scopeStep run label = some next) {gate : Bool}
    (opened : run.state.resumedAt index = some gate)
    : next.state.resumedAt index = some gate := by
  obtain ⟨write, found, resumed⟩ := Option.bind_eq_some_iff.mp opened
  have kept (committed : Bool) (chosen : List Nat)
      : { run.state with writes := run.state.resumeAll committed chosen }.resumedAt index
          = some gate := by
    rw [resumedAt_resumeAll found, resumed]
    split <;> rfl
  cases label with
  | enter id token sameAcquisition transactionOpen =>
    simp only [scopeStep] at taken
    split at taken
    · cases taken
    cases taken
    simp only [ScopeState.enter]
    split
    · exact opened
    · have within := (List.getElem?_eq_some_iff.mp found).1
      simpa [resumedAt, List.getElem?_append_left within] using opened
  | stage other =>
    obtain ⟨state, staged, rfl⟩ := Option.map_eq_some_iff.mp taken
    rcases stageStep_eq_some staged with rfl | ⟨staging, known, -, -, rfl⟩
    · exact opened
    · exact (resumedAt_set known staging.stage_resumed index).trans opened
  | settle other answer =>
    obtain ⟨state, settled, rfl⟩ := Option.map_eq_some_iff.mp taken
    obtain ⟨settling, known, -, rfl⟩ := settleStep_eq_some settled
    exact (resumedAt_set known (settling.settle_resumed answer) index).trans opened
  | begin error =>
    simp only [scopeStep] at taken
    split at taken
    · cases taken
      exact opened
    · cases taken
      exact opened
    · cases taken
  | settleWork answer =>
    simp only [scopeStep] at taken
    split at taken
    · cases taken
      exact opened
    · cases taken
  | decide =>
    simp only [scopeStep] at taken
    split at taken
    · split at taken
      · cases taken
        exact opened
      · cases taken
      · cases taken
        exact opened
    · cases taken
  | commit answer =>
    simp only [scopeStep] at taken
    split at taken
    · cases taken
      cases answer <;> exact opened
    · cases taken
  | confirm =>
    simp only [scopeStep] at taken
    split at taken
    · cases taken
      exact kept true _
    · cases taken
  | confirmed =>
    simp only [scopeStep] at taken
    split at taken
    · obtain ⟨answer, -, rfl⟩ := Option.map_eq_some_iff.mp taken
      exact opened
    · cases taken
  | report =>
    simp only [scopeStep] at taken
    split at taken
    · cases taken
      exact opened
    · cases taken
  | close =>
    simp only [scopeStep] at taken
    split at taken
    · cases taken
      exact kept false _
    · cases taken

-- Atomicity

/-- The transaction is all or nothing. `commits` says when it commits as long as the call of
the store's transaction does not itself reject; `justified` says, always, what a commit rests on
and that its rows are all the tracked writes.
-/
structure ScopeAtomic (run : ScopeRun Value Response Fault) : Prop where
  commits
    : run.Returned → run.state.transactionError = none
      → (run.state.committed ≠ none ↔ run.state.Good)
  justified
    : ∀ rows, run.state.committed = some rows
      → run.state.Good ∧ ∀ index, index ∈ rows ↔ index < run.state.writes.length
  reported
    : ∀ value confirmed, run.control = .returned (.committed value confirmed)
      → run.state.committed ≠ none ∧ run.state.work = some (.value value)
  resumed
    : run.Returned
      → ∀ (index : Nat) (write : TrackedWrite Value Response Fault),
        run.state.writes[index]? = some write
      → write.receipt.isStaged = true
      → write.resumed
        = some (run.state.committed.isSome && run.state.transactionError.isNone)
  unstaged
    : ∀ write ∈ run.state.writes, write.receipt.isStaged = false → write.resumed = none
  once
    : ∀ label next index gate, scopeStep run label = some next
      → run.state.resumedAt index = some gate → next.state.resumedAt index = some gate
  settles : Settles ScopeRun.Progress ScopeRun.Returned run

theorem ScopeInv.staged_all (h : ScopeInv run) {value : Value} (ready : run.state.Ready value)
    (index : Nat)
    : index ∈ run.state.staged ↔ index < run.state.writes.length := by
  rw [h.writes.staged]
  constructor
  · rintro ⟨write, found, -⟩
    exact (List.getElem?_eq_some_iff.mp found).1
  · intro within
    exact ⟨run.state.writes[index], List.getElem?_eq_getElem within,
      ready.writes _ (List.getElem_mem within)⟩

theorem ScopeInv.ready_of_committed (h : ScopeInv run) {rows : List Nat}
    (committed : run.state.committed = some rows)
    : (∃ value, run.state.Ready value) ∧ rows = run.state.staged := by
  have ended {outcome : ScopeOutcome Value Response Fault} {gate : Option Bool}
      (sound : run.state.Ended outcome gate)
      : (∃ value, run.state.Ready value) ∧ rows = run.state.staged := by
    cases sound with
    | landed value ready landed fault gates reported =>
      exact ⟨⟨value, ready⟩, Option.some.inj (committed.symm.trans landed)⟩
    | rejected value error ready landed fault gates threw =>
      exact ⟨⟨value, ready⟩, landed rows committed⟩
    | aborted bad nothing fault gates reported =>
      rw [committed] at nothing
      cases nothing
  have untouched (sound : run.state.Untouched) : False := by
    rw [sound.committed] at committed
    cases committed
  have sound := h.control
  cases control : run.control with
  | starting =>
    rw [control] at sound
    rw [sound] at committed
    cases committed
  | working =>
    rw [control] at sound
    exact (untouched sound.2.2).elim
  | draining =>
    rw [control] at sound
    exact (untouched sound.2.2).elim
  | committing value =>
    rw [control] at sound
    exact (untouched sound.2.2).elim
  | confirming value todo waiting seen =>
    rw [control] at sound
    obtain ⟨-, ready, ⟨landed, -⟩, -⟩ := sound
    exact ⟨⟨value, ready⟩, Option.some.inj (committed.symm.trans landed)⟩
  | closing outcome =>
    rw [control] at sound
    exact ended sound.2.2
  | returned outcome =>
    rw [control] at sound
    exact ended sound.2.2

theorem ScopeInv.ended (h : ScopeInv run) {outcome : ScopeOutcome Value Response Fault}
    (control : run.control = .returned outcome)
    : run.state.Ended outcome (some false) := by
  have sound := h.control
  rw [control] at sound
  exact sound.2.2

/-- Every state a locked transaction can reach is atomic. -/
theorem locked_transaction_atomic {run : ScopeRun Value Response Fault}
    (reached : lockedTransaction.Reachable run)
    : ScopeAtomic run := by
  have h := ScopeInv.of_reachable reached
  refine ⟨?_, ?_, ?_, ?_, h.writes.unstaged, fun _ _ _ _ taken => resumedAt_step taken,
    h.settles⟩
  · rintro ⟨outcome, control⟩ undisturbed
    cases h.ended control with
    | landed value ready committed fault gates reported =>
      simp [committed, ready.good h.admissions]
    | rejected value error ready committed fault gates threw =>
      rw [undisturbed] at fault
      cases fault
    | aborted bad committed fault gates reported => simp [committed, bad]
  · intro rows committed
    obtain ⟨⟨value, ready⟩, rfl⟩ := h.ready_of_committed committed
    exact ⟨ready.good h.admissions, h.staged_all ready⟩
  · intro value confirmed control
    cases h.ended control with
    | landed other ready committed fault gates reported =>
      rw [reported value confirmed rfl]
      exact ⟨by simp [committed], ready.work⟩
    | rejected other error ready committed fault gates threw => cases threw
    | aborted bad committed fault gates reported => exact absurd rfl (reported value confirmed)
  · rintro ⟨outcome, control⟩ index write found staged
    have member := (h.writes.staged index).mpr ⟨write, found, staged⟩
    have gate : run.state.resumedAt index = write.resumed := by
      simp [resumedAt, found]
    rw [← gate]
    cases h.ended control with
    | landed value ready committed fault gates reported =>
      simp [gates index member, committed, fault]
    | rejected value error ready committed fault gates threw =>
      simp [gates index member, fault]
    | aborted bad committed fault gates reported =>
      simp [gates index member, committed]

def lateRun : List (ScopeLabel Nat Nat Nat) := [
  .begin none, .enter "a" (.ok ()) true true, .stage 0, .settleWork (.value 7),
  .enter "b" (.ok ()) true true, .decide, .commit .committed, .confirm, .settle 0 (.value 5),
  .confirmed, .report, .close]

def rejectedRun : List (ScopeLabel Nat Nat Nat) := [
  .begin none, .enter "a" (.ok ()) true true, .stage 0, .settleWork (.value 7), .decide,
  .commit (.rejected (.thrown 3) false), .close]

theorem late_run_atomic
    : ∃ run, lockedTransaction.run ScopeRun.unstarted lateRun = some run
        ∧ run.control = .returned (.committed 7 [5]) ∧ ScopeAtomic run := by
  have seen
      : (lockedTransaction.run ScopeRun.unstarted lateRun).map ScopeRun.control
        = some (.returned (.committed 7 [5])) := by
    decide
  obtain ⟨run, executed, returned⟩ := Option.map_eq_some_iff.mp seen
  exact ⟨run, executed, returned,
    locked_transaction_atomic (System.reachable_of_run rfl executed)⟩

/-- The late write's admission is refused, and the transaction commits. Conversely, with
nothing refused at all, a store that rejects the commit leaves nothing committed.
-/
theorem late_refusal_still_commits
    : (∃ run : ScopeRun Nat Nat Nat, lockedTransaction.Reachable run ∧ run.Returned
        ∧ run.state.refusals = [(.draining, .transactionClosed)]
        ∧ run.state.committed = some [0])
      ∧ ∃ run : ScopeRun Nat Nat Nat, lockedTransaction.Reachable run ∧ run.Returned
        ∧ run.state.refusals = [] ∧ run.state.work = some (.value 7)
        ∧ (run.state.writes.all fun write => write.receipt.isStaged) = true
        ∧ run.state.committed = none := by
  have late
      : (lockedTransaction.run ScopeRun.unstarted lateRun).map
          (fun run => (run.control, run.state.refusals, run.state.committed))
        = some (.returned (.committed 7 [5]), [(.draining, .transactionClosed)], some [0]) := by
    decide
  have rejected
      : (lockedTransaction.run ScopeRun.unstarted rejectedRun).map
          (fun run => (run.control, run.state.refusals, run.state.work))
        = some (.returned (.threw (.thrown 3)), [], some (.value 7)) := by
    decide
  have nothing
      : (lockedTransaction.run ScopeRun.unstarted rejectedRun).map
          (fun run => (run.state.writes.all fun write => write.receipt.isStaged,
            run.state.committed))
        = some (true, none) := by
    decide
  constructor
  · obtain ⟨run, executed, seen⟩ := Option.map_eq_some_iff.mp late
    simp only [Prod.mk.injEq] at seen
    exact ⟨run, System.reachable_of_run rfl executed, ⟨_, seen.1⟩, seen.2.1, seen.2.2⟩
  · obtain ⟨run, executed, seen⟩ := Option.map_eq_some_iff.mp rejected
    rw [executed] at nothing
    simp only [Option.map_some, Option.some.injEq, Prod.mk.injEq] at seen nothing
    obtain ⟨control, refusals, work⟩ := seen
    exact ⟨run, System.reachable_of_run rfl executed, ⟨_, control⟩, refusals, work, nothing⟩

end Flair.MemoryLock
