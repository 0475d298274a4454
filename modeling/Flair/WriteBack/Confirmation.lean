import Flair.WriteBack.Attempts

/-! A resolved write was shown by a read made after its commit, and a plan that may not be
repeated reaches a commit at most once.
-/

namespace Flair.WriteBack

open Dynamic Transition

-- What a confirmed write shows

/-- The row identity a plan made from `row` leaves: a full write replaces every field, an
update keeps those it does not name.
-/
def Plan.identityOver (plan : Plan) (row : Option Record) : Option Record :=
  match plan with
  | .write written _ => some written
  | .update patch _ => row.map (fun row => row.assign patch)
  | .skip _ => row

def SameRowIdentity : Option Record → Option Record → Prop
  | none, none => True
  | some left, some right => SameIdentity left right
  | _, _ => False

/-- The committed row carries the values of a plan made from `row`, on the row identity
that plan leaves.
-/
structure ShowsPlan (shown row : Option Record) (plan : Plan) (writeId : String) : Prop where
  values
    : ∀ field ∈ plan.values.fields,
        field ∉ harperManagedFields
        → plan.markerField ≠ some field
        → shown.bind (fun shown => shown.get field) = plan.values.get field
  marker
    : ∀ field,
        plan.markerField = some field
        → shown.bind (fun shown => shown.get field) = some (.str writeId)
  identity : SameRowIdentity shown (plan.identityOver row)

theorem sameRowIdentity_of_sameStoredRow {left right : Option Record}
    (h : sameStoredRow left right = true)
    : SameRowIdentity left right := by
  cases left with
  | none =>
    cases right with
    | none => trivial
    | some right => simp [sameStoredRow] at h
  | some left =>
    cases right with
    | none => simp [sameStoredRow] at h
    | some right => exact SameIdentity.of_sameStoredRow h

variable {call : Call} {basis row : Option Record}

theorem Call.sameTarget_identity (h : call.sameTarget basis row = true)
    : SameRowIdentity row basis := by
  cases row with
  | none =>
    cases basis with
    | none => trivial
    | some basis => simp [Call.sameTarget] at h
  | some row =>
    cases basis with
    | none => simp [Call.sameTarget] at h
    | some basis =>
      simp only [Call.sameTarget, Bool.and_eq_true] at h
      exact SameIdentity.of_sameStoredRow h.1.1

/-- The identity the post-commit check expects of an update is the one the update leaves on
the row its plan was made from, since that row has the selected row's identity.
-/
theorem updatedIdentity_over {shown : Option Record} {patch : Record}
    (check : sameStoredRow shown (updatedIdentity basis patch) = true)
    (target : SameRowIdentity row basis)
    : SameRowIdentity shown (row.map (fun row => row.assign patch)) := by
  have agree := sameRowIdentity_of_sameStoredRow check
  cases row with
  | none =>
    cases basis with
    | none => exact agree
    | some basis => exact target.elim
  | some row =>
    cases basis with
    | none => exact target.elim
    | some basis =>
      obtain ⟨identity, found, updated⟩ := updatedIdentity_sameIdentity basis patch
      rw [found] at agree
      cases shown with
      | none => exact agree.elim
      | some shown =>
        have back : SameIdentity basis row :=
          ⟨target.id.symm, fun field member different =>
            (target.rest field member different).symm⟩
        exact (agree.trans updated).trans (back.assign patch)

theorem showsPlan_of_check {shown : Option Record} {plan : Plan} {writeId : String}
    (check : committedShowsWrite shown basis plan writeId = true)
    (target : call.sameTarget basis row = true) (writes : plan.writes = true)
    : ShowsPlan shown row plan writeId := by
  have marker (h : markerShown shown plan writeId = true) (field : String)
      (named : plan.markerField = some field)
      : shown.bind (fun shown => shown.get field) = some (.str writeId) := by
    simpa [markerShown, named] using h
  have values (except : List String) (h : showsValues shown plan except = true)
      (field : String) (member : field ∈ plan.values.fields) (kept : field ∉ except)
      (other : plan.markerField ≠ some field)
      : shown.bind (fun shown => shown.get field) = plan.values.get field := by
    have all := of_decide_eq_true h
    rcases all field member with excepted | named | same
    · exact absurd excepted kept
    · exact absurd named other
    · exact same
  cases plan with
  | skip reason => simp [Plan.writes] at writes
  | update patch evidence =>
    simp only [committedShowsWrite, Bool.and_eq_true] at check
    obtain ⟨⟨marked, identity⟩, carried⟩ := check
    exact {
      values := fun field member _ other => values [] carried field member (by simp) other
      marker := marker marked
      identity := updatedIdentity_over identity (Call.sameTarget_identity target)
    }
  | write written evidence =>
    simp only [committedShowsWrite, Bool.and_eq_true] at check
    obtain ⟨⟨⟨marked, identity⟩, carried⟩, _⟩ := check
    exact {
      values := values harperManagedFields carried
      marker := marker marked
      identity := sameRowIdentity_of_sameStoredRow identity
    }

-- The invariant of a call

@[simp] def Event.unrepeatable : Event → Bool
  | .committed plan _ _ => !plan.idempotent
  | _ => false

/-- How many attempts of plans not declared idempotent reached a commit: only their puts
could have taken effect.
-/
def unrepeatableCommits (log : List Event) : Nat := log.countP Event.unrepeatable

/-- The plan was made from `row`, then committed, then shown by a committed read. -/
def Confirmed (call : Call) (basis : Option Record) (log : List Event) (plan : Plan) : Prop :=
  ∃ row writeId landed shown,
    call.sameTarget basis row = true
    ∧ [.planned row plan, .committed plan writeId landed, .readBack shown].Sublist log
    ∧ committedShowsWrite shown basis plan writeId = true

/-- A plan on its way to a commit: it writes, it was made from the target row, and no plan
that may not be repeated was committed before it.
-/
structure Underway (call : Call) (basis : Option Record) (log : List Event)
    (row : Option Record) (plan : Plan)
    : Prop where
  writes : plan.writes = true
  target : call.sameTarget basis row = true
  planned : [.planned row plan].Sublist log
  clean : unrepeatableCommits log = 0

def Justified (call : Call) (basis : Option Record) (log : List Event) : Phase → Prop
  | .selecting | .opening | .planning _ => unrepeatableCommits log = 0
  | .staging row plan | .staged row plan _ | .confirmed row plan _ =>
    Underway call basis log row plan
  | .verifying row plan writeId =>
    plan.writes = true
    ∧ call.sameTarget basis row = true
    ∧ (∃ landed, [.planned row plan, .committed plan writeId landed].Sublist log)
    ∧ unrepeatableCommits log = if plan.idempotent then 0 else 1
  | .resolved plan =>
    unrepeatableCommits log ≤ 1 ∧ (plan.writes = true → Confirmed call basis log plan)
  | .failed _ => unrepeatableCommits log ≤ 1

def State.Sound (call : Call) (state : State) : Prop :=
  Justified call state.basis state.log state.phase

theorem unrepeatableCommits_append (log : List Event) (event : Event)
    : unrepeatableCommits (log ++ [event])
      = unrepeatableCommits log + if event.unrepeatable then 1 else 0 := by
  simp [unrepeatableCommits, List.countP_append, List.countP_cons]

/-- Another writer's commit justifies what was justified: it adds an event that is no
commit of this call. Witness: each phase's evidence is a sublist of a longer log.
-/
theorem Justified.other {log : List Event} {phase : Phase} (h : Justified call basis log phase)
    : Justified call basis (log ++ [.otherCommit]) phase := by
  have same : unrepeatableCommits (log ++ [.otherCommit]) = unrepeatableCommits log := by
    simp [unrepeatableCommits_append]
  have longer : log.Sublist (log ++ [.otherCommit]) := List.sublist_append_left log _
  cases phase with
  | selecting | opening => exact same.trans h
  | planning row => exact same.trans h
  | staging row plan =>
    exact ⟨h.writes, h.target, h.planned.trans longer, same.trans h.clean⟩
  | staged row plan writeId =>
    exact ⟨h.writes, h.target, h.planned.trans longer, same.trans h.clean⟩
  | confirmed row plan writeId =>
    exact ⟨h.writes, h.target, h.planned.trans longer, same.trans h.clean⟩
  | verifying row plan writeId =>
    obtain ⟨writes, target, ⟨landed, ordered⟩, count⟩ := h
    exact ⟨writes, target, ⟨landed, ordered.trans longer⟩, same.trans count⟩
  | resolved plan =>
    obtain ⟨count, confirmed⟩ := h
    refine ⟨same.le.trans count, fun writes => ?_⟩
    obtain ⟨row, writeId, landed, shown, target, ordered, check⟩ := confirmed writes
    exact ⟨row, writeId, landed, shown, target, ordered.trans longer, check⟩
  | failed failure => exact same.le.trans h

variable {state : State}

theorem State.Sound.retry (failure : Failure) (clean : unrepeatableCommits state.log = 0)
    : (state.retry call failure).Sound call := by
  unfold State.retry
  split
  · exact clean.le.trans (Nat.zero_le 1)
  · exact clean

theorem State.Sound.decide (clean : unrepeatableCommits state.log = 0)
    : (state.decide call row).Sound call := by
  unfold State.decide
  split
  · exact clean.le.trans (Nat.zero_le 1)
  · exact ⟨clean.le.trans (Nat.zero_le 1), fun writes => by simp [Plan.writes] at writes⟩
  rename_i plan notSkip answered
  split
  · rename_i target
    refine ⟨?_, target, List.sublist_append_right _ _, ?_⟩
    · cases plan with
      | skip reason => exact absurd rfl (notSkip reason)
      | write | update => rfl
    · simp [State.note, State.goto, unrepeatableCommits_append, clean]
  · exact clean.le.trans (Nat.zero_le 1)

theorem State.Sound.verify {plan : Plan} {writeId : String}
    (h : Justified call state.basis state.log (.verifying row plan writeId))
    : (state.verify call plan writeId).Sound call := by
  obtain ⟨writes, target, ⟨landed, ordered⟩, count⟩ := h
  have seen : unrepeatableCommits (state.note (.readBack state.stored)).log
      = if plan.idempotent then 0 else 1 := by
    simp [State.note, unrepeatableCommits_append, count]
  have bound : unrepeatableCommits (state.note (.readBack state.stored)).log ≤ 1 := by
    rw [seen]
    split <;> simp
  unfold State.verify
  split
  · rename_i accepted
    rw [Bool.and_eq_true] at accepted
    refine ⟨bound, fun _ => ?_⟩
    exact ⟨row, writeId, landed, state.stored, target,
      ordered.append (List.Sublist.refl [Event.readBack state.stored]), accepted.1⟩
  · split
    · rename_i repeatable
      exact State.Sound.retry _ (by simpa [repeatable] using seen)
    · exact bound

theorem State.Sound.step {next : State} {label : Label} (h : state.Sound call)
    (taken : step call state label = some next)
    : next.Sound call := by
  obtain ⟨stored, basis, attempt, phase, log⟩ := state
  have small (clean : unrepeatableCommits log = 0) : unrepeatableCommits log ≤ 1 := by omega
  cases label with
  | other row =>
    cases taken
    exact Justified.other h
  | advance =>
    cases phase with
    | selecting =>
      cases taken
      exact h
    | opening =>
      simp only [WriteBack.step] at taken
      split at taken
      · cases taken
        exact h
      · cases taken
        exact ⟨small h, fun writes => by simp [Plan.writes] at writes⟩
    | planning row =>
      cases taken
      exact State.Sound.decide h
    | staged row plan writeId =>
      simp only [WriteBack.step] at taken
      split at taken
      · cases taken
        exact h
      · cases taken
        exact State.Sound.retry _ h.clean
    | verifying row plan writeId =>
      cases taken
      exact State.Sound.verify h
    | _ => cases taken
  | readFails =>
    cases phase with
    | selecting =>
      simp only [WriteBack.step] at taken
      split at taken
      · cases taken
        exact small h
      · cases taken
    | opening =>
      cases taken
      exact small h
    | staged row plan writeId =>
      cases taken
      exact small h.clean
    | verifying row plan writeId =>
      cases taken
      obtain ⟨_, _, _, count⟩ := h
      have bound : unrepeatableCommits log ≤ 1 := by
        rw [count]
        split <;> simp
      exact bound
    | _ => cases taken
  | stage writeId =>
    cases phase with
    | staging row plan =>
      simp only [WriteBack.step] at taken
      split at taken
      · cases taken
        exact small h.clean
      · cases taken
        exact h
    | _ => cases taken
  | stageFails =>
    cases phase with
    | staging row plan =>
      cases taken
      exact small h.clean
    | _ => cases taken
  | commit resolves landed =>
    cases phase with
    | confirmed row plan writeId =>
      have count : unrepeatableCommits (log ++ [.committed plan writeId landed])
          = if plan.idempotent then 0 else 1 := by
        cases repeatable : plan.idempotent <;>
          simp [unrepeatableCommits_append, h.clean, repeatable]
      simp only [WriteBack.step] at taken
      split at taken
      · cases taken
        exact ⟨h.writes, h.target,
          ⟨landed, h.planned.append (List.Sublist.refl [Event.committed plan writeId landed])⟩,
          count⟩
      · cases taken
        have bound : unrepeatableCommits (log ++ [.committed plan writeId landed]) ≤ 1 := by
          rw [count]
          split <;> simp
        exact bound
    | _ => cases taken

theorem State.Sound.unrepeatable_le (h : state.Sound call)
    : unrepeatableCommits state.log ≤ 1 := by
  obtain ⟨stored, basis, attempt, phase, log⟩ := state
  have small (clean : unrepeatableCommits log = 0) : unrepeatableCommits log ≤ 1 := by omega
  cases phase with
  | selecting | opening => exact small h
  | planning row => exact small h
  | staging row plan => exact small h.clean
  | staged row plan writeId => exact small h.clean
  | confirmed row plan writeId => exact small h.clean
  | verifying row plan writeId =>
    obtain ⟨_, _, _, count⟩ := h
    have bound : unrepeatableCommits log ≤ 1 := by
      rw [count]
      split <;> simp
    exact bound
  | resolved plan => exact h.1
  | failed failure => exact h

theorem sound_of_reachable (h : (system call).Reachable state)
    : state.Sound call := by
  refine System.Reachable.invariant ?_ (fun _ _ _ holds taken => holds.step taken) h
  rintro start ⟨_, _, phase, log⟩
  simp [State.Sound, phase, log, Justified, unrepeatableCommits]

/-- A call commits at most one plan that may not be repeated, and a call that resolves with
a write saw, in a read made after that write's commit, the planned values on the identity
the plan leaves on the row it was made from.
-/
theorem resolved_write_shown_and_not_repeated (call : Call) (state : State)
    (reached : (system call).Reachable state)
    : unrepeatableCommits state.log ≤ 1
      ∧ ∀ plan,
          state.phase = .resolved plan
          → plan.writes = true
          → ∃ row writeId landed shown,
              [.planned row plan, .committed plan writeId landed, .readBack shown].Sublist
                state.log
              ∧ ShowsPlan shown row plan writeId := by
  have sound := sound_of_reachable reached
  refine ⟨sound.unrepeatable_le, fun plan resolved writes => ?_⟩
  unfold State.Sound at sound
  rw [resolved] at sound
  obtain ⟨row, writeId, landed, shown, target, ordered, check⟩ := sound.2 writes
  exact ⟨row, writeId, landed, shown, ordered, showsPlan_of_check check target writes⟩

-- An update that writes an identity field

def rehash : Call where
  plan _ _ := some (.update (.ofFields [("contentHash", .str "new")]) .idempotent)
  attempts := 1
  expectedRow := none
  «matches» _ := true
  matchFields := []
  wholeRow := false
  verifyAlso _ := true

def unhashed : Record := .ofFields [("id", .str "m"), ("contentHash", .str "old")]

def hashed : Record := .ofFields [("id", .str "m"), ("contentHash", .str "new")]

def rehashPlan : Plan := .update (.ofFields [("contentHash", .str "new")]) .idempotent

def rehashed : State where
  stored := some hashed
  basis := some unhashed
  attempt := 1
  phase := .resolved rehashPlan
  log := [
    .planned (some unhashed) rehashPlan,
    .committed rehashPlan "w" true,
    .readBack (some hashed)
  ]

theorem rehashed_reachable : (system rehash).Reachable rehashed := by
  have finished : (system rehash).run
      { stored := some unhashed, basis := none, attempt := 1, phase := .selecting, log := [] }
      [.advance, .advance, .advance, .stage "w", .advance, .commit true true, .advance]
      = some rehashed := by
    decide
  exact System.reachable_of_run ⟨rfl, rfl, rfl, rfl⟩ finished

theorem rehash_shown
    : ∃ row writeId landed shown,
        [.planned row rehashPlan, .committed rehashPlan writeId landed, .readBack shown].Sublist
          rehashed.log
        ∧ ShowsPlan shown row rehashPlan writeId :=
  (resolved_write_shown_and_not_repeated rehash rehashed rehashed_reachable).2 rehashPlan rfl rfl

/-- No read shows the resolved merge of `rehash` on the identity its plan was made from:
the merge itself writes the content hash.
-/
theorem rehash_not_shown_on_planned_row
    : (system rehash).Reachable rehashed
      ∧ rehashed.phase = .resolved rehashPlan
      ∧ rehashPlan.writes = true
      ∧ ∀ row shown,
          .planned row rehashPlan ∈ rehashed.log
          → .readBack shown ∈ rehashed.log
          → ¬ SameRowIdentity shown row := by
  refine ⟨rehashed_reachable, rfl, rfl, ?_⟩
  intro row shown planned seen same
  obtain rfl : row = some unhashed := by simpa [rehashed] using planned
  obtain rfl : shown = some hashed := by simpa [rehashed] using seen
  have equal := same.rest "contentHash" (by decide) (by decide)
  exact absurd equal (by decide)

end Flair.WriteBack
