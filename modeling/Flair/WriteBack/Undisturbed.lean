import Flair.WriteBack.Attempts

/-! A write-back that no other writer and no store failure disturbs, as a function of the
stored row, and the run of the transition system it is.
-/

namespace Flair.WriteBack

open Dynamic Transition

/-- The call after its selecting read, before its first attempt reads the row. -/
def opened (call : Call) (stored : Option Record) : State where
  stored
  basis := call.expectedRow.getD stored
  attempt := 1
  phase := .opening
  log := []

/-- The plan's staged values landed, before the check after the commit. -/
def State.land (state : State) (row : Option Record) (plan : Plan) (writeId : String) : State :=
  { state with stored := plan.landed writeId state.stored }.note (.committed plan writeId true)
    |>.goto (.verifying row plan writeId)

def undisturbedWrite (call : Call) (writeId : String) (decided : State) : State :=
  match decided.phase with
  | .staging row plan =>
    if plan.markerField = some "" then decided.goto (.failed .threw)
    else (decided.land row plan writeId).verify call plan writeId
  | _ => decided

/-- The first attempt of a call that nothing disturbs, up to its check after the commit. -/
def undisturbed (call : Call) (writeId : String) (stored : Option Record) : State :=
  if call.matches stored
  then undisturbedWrite call writeId ((opened call stored).decide call stored)
  else (opened call stored).goto (.resolved (.skip none))

theorem State.decide_cases (state : State) (call : Call) (row : Option Record)
    : (∃ failure, state.decide call row = state.goto (.failed failure))
      ∨ (∃ reason,
          call.plan state.attempt row = some (.skip reason)
          ∧ state.decide call row = state.goto (.resolved (.skip reason)))
      ∨ ∃ plan,
          call.plan state.attempt row = some plan
          ∧ plan.writes = true
          ∧ call.sameTarget state.basis row = true
          ∧ state.decide call row
            = (state.note (.planned row plan)).goto (.staging row plan) := by
  unfold State.decide
  split
  · exact Or.inl ⟨.threw, rfl⟩
  · rename_i reason answered
    exact Or.inr (Or.inl ⟨reason, answered, rfl⟩)
  rename_i plan notSkip answered
  by_cases target : call.sameTarget state.basis row = true
  · have writes : plan.writes = true := by
      cases plan with
      | skip reason => exact absurd rfl (notSkip reason)
      | write | update => rfl
    exact Or.inr (Or.inr ⟨plan, answered, writes, target, by simp [target]⟩)
  · exact Or.inl ⟨.conflict, by simp [target]⟩

theorem undisturbedWrite_staging (call : Call) (writeId : String) (state : State)
    (row : Option Record) (plan : Plan)
    : undisturbedWrite call writeId (state.goto (.staging row plan))
      = if plan.markerField = some "" then state.goto (.failed .threw)
        else (state.land row plan writeId).verify call plan writeId :=
  rfl

-- What an undisturbed call leaves

@[simp] theorem State.retry_stored (state : State) (call : Call) (failure : Failure)
    : (state.retry call failure).stored = state.stored := by
  unfold State.retry
  split <;> rfl

@[simp] theorem State.verify_stored (state : State) (call : Call) (plan : Plan)
    (writeId : String)
    : (state.verify call plan writeId).stored = state.stored := by
  unfold State.verify
  split
  · rfl
  · split
    · simp
    · rfl

theorem State.retry_phase (state : State) (call : Call) (failure : Failure)
    : (state.retry call failure).phase = .failed failure
      ∨ (state.retry call failure).phase = .opening := by
  unfold State.retry
  split
  · exact Or.inl rfl
  · exact Or.inr rfl

theorem State.verify_phase (state : State) (call : Call) (plan : Plan) (writeId : String)
    : (state.verify call plan writeId).phase = .resolved plan
      ∨ (state.verify call plan writeId).phase = .failed .unconfirmed
      ∨ (state.verify call plan writeId).phase = .opening := by
  unfold State.verify
  split
  · exact Or.inl rfl
  · split
    · exact Or.inr (State.retry_phase _ call .unconfirmed)
    · exact Or.inr (Or.inl rfl)

/-- How an undisturbed call ends: over an untouched row it failed or skipped, otherwise its
plan was made on the target row and landed.
-/
theorem undisturbed_cases (call : Call) (writeId : String) (stored : Option Record)
    : ((undisturbed call writeId stored).stored = stored
        ∧ ((∃ failure, (undisturbed call writeId stored).phase = .failed failure)
          ∨ (undisturbed call writeId stored).phase = .resolved (.skip none)
          ∨ ∃ reason,
              call.plan 1 stored = some (.skip reason)
              ∧ (undisturbed call writeId stored).phase = .resolved (.skip reason)))
      ∨ ∃ plan,
          call.plan 1 stored = some plan
          ∧ plan.writes = true
          ∧ call.sameTarget (call.expectedRow.getD stored) stored = true
          ∧ (undisturbed call writeId stored).stored = plan.landed writeId stored
          ∧ ((undisturbed call writeId stored).phase = .resolved plan
            ∨ (undisturbed call writeId stored).phase = .failed .unconfirmed
            ∨ (undisturbed call writeId stored).phase = .opening) := by
  by_cases wanted : call.matches stored = true
  · rw [undisturbed, if_pos wanted]
    rcases (opened call stored).decide_cases call stored with
      ⟨failure, found⟩ | ⟨reason, answered, found⟩ | ⟨plan, answered, writes, target, found⟩
    · rw [found]
      exact Or.inl ⟨rfl, Or.inl ⟨failure, rfl⟩⟩
    · rw [found]
      exact Or.inl ⟨rfl, Or.inr (Or.inr ⟨reason, answered, rfl⟩)⟩
    rw [found, undisturbedWrite_staging]
    by_cases unnamed : plan.markerField = some ""
    · rw [if_pos unnamed]
      exact Or.inl ⟨rfl, Or.inl ⟨.threw, rfl⟩⟩
    · rw [if_neg unnamed]
      exact Or.inr ⟨plan, answered, writes, target, State.verify_stored _ _ _ _,
        State.verify_phase _ _ _ _⟩
  · rw [undisturbed, if_neg wanted]
    exact Or.inl ⟨rfl, Or.inr (Or.inl rfl)⟩

theorem undisturbed_lands {call : Call} {writeId : String} {stored : Option Record}
    {plan : Plan} (wanted : call.matches stored = true)
    (answered : call.plan 1 stored = some plan) (writes : plan.writes = true)
    (repeatable : plan.idempotent = true)
    (target : call.sameTarget (call.expectedRow.getD stored) stored = true)
    : (undisturbed call writeId stored).stored = plan.landed writeId stored := by
  have unmarked : plan.markerField ≠ some "" := by
    cases plan with
    | skip reason => simp [Plan.writes] at writes
    | write row evidence => cases evidence <;> simp_all [Plan.idempotent, Plan.markerField]
    | update patch evidence => cases evidence <;> simp_all [Plan.idempotent, Plan.markerField]
  have found : (opened call stored).decide call stored
      = ((opened call stored).note (.planned stored plan)).goto (.staging stored plan) := by
    cases plan with
    | skip reason => simp [Plan.writes] at writes
    | write row evidence => simp [State.decide, opened, answered, target]
    | update patch evidence => simp [State.decide, opened, answered, target]
  rw [undisturbed, if_pos wanted, found, undisturbedWrite_staging, if_neg unmarked]
  exact State.verify_stored _ _ _ _

end Flair.WriteBack
