import Flair.WriteBack.Undisturbed

/-! The plan a write-back holds on its way to a commit, and the row its call has selected:
where they come from, one step at a time.
-/

namespace Flair.WriteBack

open Dynamic

def Phase.held : Phase → Option (Option Record × Plan)
  | .staging row plan | .staged row plan _ | .confirmed row plan _ => some (row, plan)
  | _ => none

@[simp] theorem State.retry_basis (state : State) (call : Call) (failure : Failure)
    : (state.retry call failure).basis = state.basis := by
  unfold State.retry
  split <;> rfl

@[simp] theorem State.decide_basis (state : State) (call : Call) (row : Option Record)
    : (state.decide call row).basis = state.basis := by
  unfold State.decide
  split
  · rfl
  · rfl
  · split <;> rfl

@[simp] theorem State.decide_stored (state : State) (call : Call) (row : Option Record)
    : (state.decide call row).stored = state.stored := by
  unfold State.decide
  split
  · rfl
  · rfl
  · split <;> rfl

@[simp] theorem State.verify_basis (state : State) (call : Call) (plan : Plan)
    (writeId : String)
    : (state.verify call plan writeId).basis = state.basis := by
  unfold State.verify
  split
  · rfl
  · split
    · exact State.retry_basis _ call .unconfirmed
    · rfl

theorem State.retry_held (state : State) (call : Call) (failure : Failure)
    : (state.retry call failure).phase.held = none := by
  rcases state.retry_phase call failure with same | same <;> rw [same] <;> rfl

theorem State.verify_held (state : State) (call : Call) (plan : Plan) (writeId : String)
    : (state.verify call plan writeId).phase.held = none := by
  rcases state.verify_phase call plan writeId with same | same | same <;> rw [same] <;> rfl

variable {state : State} {call : Call}

theorem State.decide_held {row held : Option Record} {plan : Plan}
    (h : (state.decide call row).phase.held = some (held, plan))
    : held = row ∧ call.plan state.attempt row = some plan
      ∧ call.sameTarget state.basis row = true := by
  rcases state.decide_cases call row with
    ⟨failure, found⟩ | ⟨reason, -, found⟩ | ⟨made, answered, -, target, found⟩
  · simp [found, Phase.held] at h
  · simp [found, Phase.held] at h
  · rw [found] at h
    obtain ⟨rfl, rfl⟩ := Prod.mk.inj (Option.some.inj h)
    exact ⟨rfl, answered, target⟩

def Selected (call : Call) (selected : Option Record) (state : State) : Prop :=
  call.expectedRow = some selected ∧ (state.phase = .selecting ∨ state.basis = selected)

def PlannedOn (call : Call) (selected : Option Record) (state : State) : Prop :=
  ∀ row plan, state.phase.held = some (row, plan)
    → (∃ attempt, call.plan attempt row = some plan) ∧ call.sameTarget selected row = true

theorem PlannedOn.of_unheld {selected : Option Record} (h : state.phase.held = none)
    : PlannedOn call selected state := by
  intro row plan held
  rw [h] at held
  cases held

/-- Where one step of a call leads: its basis, what it holds and what it has stored. Only a
commit changes the stored row, into what its plan lands.
-/
theorem step_selected {selected : Option Record} {next : State} {label : Label}
    (own : ∀ row, label ≠ .other row) (basis : Selected call selected state)
    (planned : PlannedOn call selected state) (taken : step call state label = some next)
    : Selected call selected next ∧ PlannedOn call selected next
      ∧ (next.stored = state.stored
        ∨ ∃ row plan writeId resolves, label = .commit resolves true
          ∧ state.phase = .confirmed row plan writeId
          ∧ next.stored = plan.landed writeId state.stored) := by
  obtain ⟨stored, read, attempt, phase, log⟩ := state
  obtain ⟨expected, based⟩ := basis
  cases label with
  | other row => exact absurd rfl (own row)
  | advance =>
    cases phase with
    | selecting =>
      cases taken
      exact ⟨⟨expected, Or.inr (by simp [expected])⟩, .of_unheld rfl, .inl rfl⟩
    | opening =>
      simp only [step] at taken
      split at taken
      · cases taken
        exact ⟨⟨expected, Or.inr (based.resolve_left (by simp))⟩, .of_unheld rfl, .inl rfl⟩
      · cases taken
        exact ⟨⟨expected, Or.inr (based.resolve_left (by simp))⟩, .of_unheld rfl, .inl rfl⟩
    | planning row =>
      cases taken
      have kept : read = selected := by simpa using based
      refine ⟨⟨expected, Or.inr (by simpa using kept)⟩, ?_, Or.inl (by simp)⟩
      intro held plan same
      obtain ⟨rfl, answered, target⟩ := State.decide_held same
      exact ⟨⟨attempt, answered⟩, kept ▸ target⟩
    | staged row plan writeId =>
      simp only [step] at taken
      split at taken
      · cases taken
        exact ⟨⟨expected, Or.inr (based.resolve_left (by simp))⟩, planned, Or.inl rfl⟩
      cases taken
      have kept : read = selected := by simpa using based
      refine ⟨⟨expected, Or.inr (by simpa using kept)⟩, ?_, Or.inl (by simp)⟩
      intro held made same
      rw [State.retry_held] at same
      cases same
    | verifying row plan writeId =>
      cases taken
      have kept : read = selected := by simpa using based
      refine ⟨⟨expected, Or.inr (by simpa using kept)⟩, ?_, Or.inl (by simp)⟩
      intro held made same
      rw [State.verify_held] at same
      cases same
    | _ => cases taken
  | readFails =>
    cases phase with
    | selecting =>
      simp only [step, expected] at taken
      cases taken
    | opening | staged _ _ _ | verifying _ _ _ =>
      cases taken
      exact ⟨⟨expected, Or.inr (based.resolve_left (by simp))⟩, .of_unheld rfl, .inl rfl⟩
    | _ => cases taken
  | stage writeId =>
    cases phase with
    | staging row plan =>
      simp only [step] at taken
      split at taken
      · cases taken
        exact ⟨⟨expected, Or.inr (based.resolve_left (by simp))⟩, .of_unheld rfl, .inl rfl⟩
      · cases taken
        exact ⟨⟨expected, Or.inr (based.resolve_left (by simp))⟩, planned, Or.inl rfl⟩
    | _ => cases taken
  | stageFails =>
    cases phase with
    | staging row plan =>
      cases taken
      exact ⟨⟨expected, Or.inr (based.resolve_left (by simp))⟩, .of_unheld rfl, .inl rfl⟩
    | _ => cases taken
  | commit resolves landed =>
    cases phase with
    | confirmed row plan writeId =>
      simp only [step] at taken
      have after : next.stored = if landed then plan.landed writeId stored else stored := by
        split at taken <;> cases taken <;> rfl
      have wrote : next.stored = stored
          ∨ ∃ other made id answered, Label.commit resolves landed = .commit answered true
            ∧ Phase.confirmed row plan writeId = .confirmed other made id
            ∧ next.stored = made.landed id stored := by
        cases landed with
        | false => exact Or.inl after
        | true => exact Or.inr ⟨row, plan, writeId, resolves, rfl, rfl, after⟩
      split at taken <;> cases taken <;>
        exact ⟨⟨expected, Or.inr (based.resolve_left (by simp))⟩, .of_unheld rfl, wrote⟩
    | _ => cases taken

theorem step_confirmed {next : State} {label : Label} {row : Option Record} {plan : Plan}
    {writeId : String} (own : ∀ row, label ≠ .other row) (taken : step call state label = some next)
    (confirms : next.phase = .confirmed row plan writeId)
    : next.stored = row := by
  have held : next.phase.held = some (row, plan) := by rw [confirms]; rfl
  obtain ⟨stored, basis, attempt, phase, log⟩ := state
  cases label with
  | other row => exact absurd rfl (own row)
  | advance =>
    cases phase with
    | staged read made id =>
      simp only [step] at taken
      split at taken
      · rename_i same
        cases taken
        obtain ⟨rfl, -, -⟩ := Phase.confirmed.inj confirms
        exact same
      · cases taken
        rw [State.retry_held] at held
        cases held
    | planning read =>
      cases taken
      rcases State.decide_cases { stored, basis, attempt, phase := .planning read, log } call
        read with ⟨failure, found⟩ | ⟨reason, -, found⟩ | ⟨made, -, -, -, found⟩ <;>
      · rw [found] at confirms
        cases confirms
    | verifying read made id =>
      cases taken
      rw [State.verify_held] at held
      cases held
    | opening =>
      simp only [step] at taken
      split at taken <;> cases taken <;> cases confirms
    | selecting =>
      cases taken
      cases confirms
    | _ => cases taken
  | readFails =>
    cases phase with
    | selecting =>
      simp only [step] at taken
      split at taken
      · cases taken
        cases confirms
      · cases taken
    | opening | staged _ _ _ | verifying _ _ _ =>
      cases taken
      cases confirms
    | _ => cases taken
  | stage id =>
    cases phase with
    | staging read made =>
      simp only [step] at taken
      split at taken <;> cases taken <;> cases confirms
    | _ => cases taken
  | stageFails =>
    cases phase with
    | staging read made =>
      cases taken
      cases confirms
    | _ => cases taken
  | commit resolves landed =>
    cases phase with
    | confirmed read made id =>
      simp only [step] at taken
      split at taken <;> cases taken <;> cases confirms
    | _ => cases taken

end Flair.WriteBack
