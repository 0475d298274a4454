import Flair.WriteBack.Undisturbed

/-! What a conflict says of a call's commits: the attempt that failed committed nothing, and
whatever an earlier attempt committed was read back and not found.
-/

namespace Flair.WriteBack

open Dynamic Transition

-- What one step does

def Event.isCommit : Event → Bool
  | .committed _ _ _ => true
  | _ => false

def Phase.early : Phase → Bool
  | .verifying _ _ _ | .resolved _ | .failed .unconfirmed | .failed .threw => false
  | _ => true

def hides (call : Call) (basis : Option Record) (plan : Plan) (writeId : String)
    (shown : Option Record)
    : Bool :=
  !(committedShowsWrite shown basis plan writeId && call.verifyAlso shown)

/-- A step that logs no commit and stays in its attempt, or begins the next one before any. -/
structure Quiet (call : Call) (state next : State) : Prop where
  logged : ∃ events, next.log = state.log ++ events ∧ ∀ event ∈ events, event.isCommit = false
  basis : state.phase = .selecting ∨ next.basis = state.basis
  attempt : next.attempt = state.attempt
    ∨ (state.phase.early = true ∧ state.attempt < call.attempts
      ∧ next.attempt = state.attempt + 1)
  early : next.phase.early = true → state.phase.early = true
  selecting : next.phase = .selecting → state.phase = .selecting
  verifying : ∀ row plan writeId, next.phase = .verifying row plan writeId
    → state.phase = .verifying row plan writeId

inductive Moved (call : Call) (state next : State) : Prop where
  | quiet (kept : Quiet call state next)
  | commits (row : Option Record) (plan : Plan) (writeId : String) (landed : Bool)
      (confirmed : state.phase = .confirmed row plan writeId)
      (log : next.log = state.log ++ [.committed plan writeId landed])
      (basis : next.basis = state.basis) (attempt : next.attempt = state.attempt)
      (phase : next.phase = .verifying row plan writeId ∨ next.phase = .failed .threw)
  | unconfirmed (row : Option Record) (plan : Plan) (writeId : String)
      (shown : Option Record) (verifying : state.phase = .verifying row plan writeId)
      (log : next.log = state.log ++ [.readBack shown])
      (hidden : hides call state.basis plan writeId shown = true)
      (repeatable : plan.idempotent = true) (basis : next.basis = state.basis)
      (more : state.attempt < call.attempts) (attempt : next.attempt = state.attempt + 1)
      (phase : next.phase = .opening)

variable {call : Call} {state : State}

theorem quiet_goto {phase : Phase} (early : phase.early = true → state.phase.early = true)
    (later : phase ≠ .selecting)
    (unverified : ∀ row plan writeId, phase ≠ .verifying row plan writeId)
    : Quiet call state (state.goto phase) where
  logged := ⟨[], (List.append_nil _).symm, by simp⟩
  basis := Or.inr rfl
  attempt := Or.inl rfl
  early := early
  selecting := fun same => absurd same later
  verifying := fun row plan writeId same => absurd same (unverified row plan writeId)

variable {next : State}

theorem quiet_end
    (logged : ∃ events, next.log = state.log ++ events ∧ ∀ event ∈ events, event.isCommit = false)
    (basis : next.basis = state.basis) (attempt : next.attempt = state.attempt)
    (ended : (∃ plan, next.phase = .resolved plan)
      ∨ next.phase = .failed .unconfirmed ∨ next.phase = .failed .threw)
    : Quiet call state next where
  logged := logged
  basis := Or.inr basis
  attempt := Or.inl attempt
  early := by rcases ended with ⟨plan, same⟩ | same | same <;> rw [same] <;> exact nofun
  selecting := by rcases ended with ⟨plan, same⟩ | same | same <;> rw [same] <;> exact nofun
  verifying := by rcases ended with ⟨plan, same⟩ | same | same <;> rw [same] <;> exact nofun

theorem quiet_retry (early : state.phase.early = true)
    : Quiet call state (state.retry call .conflict) := by
  unfold State.retry
  split
  · exact quiet_goto (fun _ => early) nofun nofun
  rename_i more
  exact {
    logged := ⟨[], (List.append_nil _).symm, by simp⟩
    basis := Or.inr rfl
    attempt := Or.inr ⟨early, not_le.mp more, rfl⟩
    early := fun _ => early
    selecting := nofun
    verifying := nofun }

theorem quiet_decide (row : Option Record) (early : state.phase.early = true)
    : Quiet call state (state.decide call row) := by
  rcases state.decide_cases call row with
    ⟨failure, found⟩ | ⟨reason, -, found⟩ | ⟨plan, -, -, -, found⟩
  · rw [found]
    exact quiet_goto (fun _ => early) nofun nofun
  · rw [found]
    exact quiet_goto (fun _ => early) nofun nofun
  rw [found]
  exact {
    logged := ⟨[.planned row plan], rfl, by simp [Event.isCommit]⟩
    basis := Or.inr rfl
    attempt := Or.inl rfl
    early := fun _ => early
    selecting := nofun
    verifying := nofun }

/-- The read after a commit ends the call, or begins the next attempt of a plan that may be
repeated and was not shown.
-/
theorem moved_verify {row : Option Record} {plan : Plan} {writeId : String}
    (verifying : state.phase = .verifying row plan writeId)
    : Moved call state (state.verify call plan writeId) := by
  have logged : ∃ events, (state.note (.readBack state.stored)).log = state.log ++ events
      ∧ ∀ event ∈ events, event.isCommit = false :=
    ⟨[.readBack state.stored], rfl, by simp [Event.isCommit]⟩
  unfold State.verify
  split
  · exact .quiet (quiet_end logged rfl rfl (Or.inl ⟨plan, rfl⟩))
  rename_i hidden
  split
  · rename_i repeatable
    by_cases spent : call.attempts ≤ (state.note (.readBack state.stored)).attempt
    · rw [State.retry, if_pos spent]
      exact .quiet (quiet_end logged rfl rfl (Or.inr (Or.inl rfl)))
    · rw [State.retry, if_neg spent]
      exact .unconfirmed row plan writeId state.stored verifying rfl
        (by rw [hides, eq_false_of_ne_true hidden]; rfl) repeatable rfl (not_le.mp spent) rfl rfl
  · exact .quiet (quiet_end logged rfl rfl (Or.inr (Or.inl rfl)))

theorem step_moved {label : Label} (taken : step call state label = some next)
    : Moved call state next := by
  obtain ⟨stored, basis, attempt, phase, log⟩ := state
  cases label with
  | other row =>
    cases taken
    exact .quiet {
      logged := ⟨[.otherCommit], rfl, by simp [Event.isCommit]⟩
      basis := Or.inr rfl
      attempt := Or.inl rfl
      early := id
      selecting := id
      verifying := fun _ _ _ => id }
  | advance =>
    cases phase with
    | selecting =>
      cases taken
      exact .quiet {
        logged := ⟨[], (List.append_nil _).symm, by simp⟩
        basis := Or.inl rfl
        attempt := Or.inl rfl
        early := fun _ => rfl
        selecting := by simp
        verifying := by simp }
    | opening =>
      simp only [step] at taken
      split at taken <;> cases taken <;>
        exact .quiet (quiet_goto (fun _ => rfl) (by simp) (by simp))
    | planning row =>
      cases taken
      exact .quiet (quiet_decide row rfl)
    | staged row plan writeId =>
      simp only [step] at taken
      split at taken
      · cases taken
        exact .quiet (quiet_goto (fun _ => rfl) (by simp) (by simp))
      · cases taken
        exact .quiet (quiet_retry rfl)
    | verifying row plan writeId =>
      cases taken
      exact moved_verify rfl
    | _ => cases taken
  | readFails =>
    cases phase with
    | selecting =>
      simp only [step] at taken
      split at taken
      · cases taken
        exact .quiet (quiet_goto (fun _ => rfl) (by simp) (by simp))
      · cases taken
    | opening | staged _ _ _ =>
      cases taken
      exact .quiet (quiet_goto (fun _ => rfl) (by simp) (by simp))
    | verifying row plan writeId =>
      cases taken
      refine .quiet (quiet_end ⟨[], (List.append_nil _).symm, by simp⟩ rfl rfl (Or.inr ?_))
      cases plan.idempotent with
      | false => exact Or.inl rfl
      | true => exact Or.inr rfl
    | _ => cases taken
  | stage writeId =>
    cases phase with
    | staging row plan =>
      simp only [step] at taken
      split at taken <;> cases taken <;>
        exact .quiet (quiet_goto (fun _ => rfl) (by simp) (by simp))
    | _ => cases taken
  | stageFails =>
    cases phase with
    | staging row plan =>
      cases taken
      exact .quiet (quiet_goto (fun _ => rfl) (by simp) (by simp))
    | _ => cases taken
  | commit resolves landed =>
    cases phase with
    | confirmed row plan writeId =>
      simp only [step] at taken
      split at taken
      · cases taken
        exact .commits row plan writeId landed rfl rfl rfl rfl (Or.inl rfl)
      · cases taken
        exact .commits row plan writeId landed rfl rfl rfl rfl (Or.inr rfl)
    | _ => cases taken

theorem step_log {label : Label} (taken : step call state label = some next)
    : ∃ events, next.log = state.log ++ events := by
  rcases step_moved taken with kept | ⟨row, plan, writeId, landed, -, log, -, -, -⟩
    | ⟨row, plan, writeId, shown, -, log, -, -, -, -, -, -⟩
  · obtain ⟨events, log, -⟩ := kept.logged
    exact ⟨events, log⟩
  · exact ⟨_, log⟩
  · exact ⟨_, log⟩

-- Commits of earlier attempts

structure FoundHidden (call : Call) (basis : Option Record) (log : List Event) (plan : Plan)
    (writeId : String) (landed : Bool)
    : Prop where
  repeatable : plan.idempotent = true
  hidden : ∃ shown, [.committed plan writeId landed, .readBack shown].Sublist log
    ∧ hides call basis plan writeId shown = true

/-- What the log says of a call's commits: before an attempt's own commit each one is of an
earlier attempt and was found hidden; after it, each but this one.
-/
structure CommitsHidden (call : Call) (state : State) : Prop where
  numbered : 1 ≤ state.attempt ∧ state.attempt ≤ max 1 call.attempts
  selecting : state.phase = .selecting → ∀ event ∈ state.log, event.isCommit = false
  early : state.phase.early = true → ∀ plan writeId landed,
    .committed plan writeId landed ∈ state.log
    → 1 < state.attempt ∧ FoundHidden call state.basis state.log plan writeId landed
  verifying : ∀ row plan writeId, state.phase = .verifying row plan writeId
    → ∀ other id landed, .committed other id landed ∈ state.log
      → other = plan ∧ id = writeId
        ∨ FoundHidden call state.basis state.log other id landed

theorem FoundHidden.longer {basis : Option Record} {log more : List Event} {plan : Plan}
    {writeId : String} {landed : Bool} (h : FoundHidden call basis log plan writeId landed)
    : FoundHidden call basis (log ++ more) plan writeId landed := by
  obtain ⟨repeatable, shown, ordered, hidden⟩ := h
  exact ⟨repeatable, shown, ordered.trans (List.sublist_append_left log more), hidden⟩

theorem CommitsHidden.quiet (h : CommitsHidden call state) (kept : Quiet call state next)
    : CommitsHidden call next := by
  obtain ⟨events, log, plain⟩ := kept.logged
  have earlier {plan : Plan} {writeId : String} {landed : Bool}
      (member : .committed plan writeId landed ∈ next.log)
      : .committed plan writeId landed ∈ state.log := by
    rw [log] at member
    rcases List.mem_append.mp member with inside | added
    · exact inside
    · exact absurd (plain _ added) (by simp [Event.isCommit])
  -- The basis is read while the log holds no commit.
  have same {plan : Plan} {writeId : String} {landed : Bool}
      (member : .committed plan writeId landed ∈ state.log)
      (found : FoundHidden call state.basis state.log plan writeId landed)
      : FoundHidden call next.basis next.log plan writeId landed := by
    rcases kept.basis with selecting | same
    · exact absurd (h.selecting selecting _ member) (by simp [Event.isCommit])
    · rw [same, log]
      exact found.longer
  refine ⟨?numbered, ?selecting, ?early, ?verifying⟩
  case numbered =>
    have numbered := h.numbered
    rcases kept.attempt with same | ⟨-, more, grown⟩ <;> omega
  case selecting =>
    intro selecting event member
    rw [log] at member
    rcases List.mem_append.mp member with inside | added
    · exact h.selecting (kept.selecting selecting) event inside
    · exact plain event added
  case early =>
    intro early plan writeId landed member
    obtain ⟨later, found⟩ := h.early (kept.early early) plan writeId landed (earlier member)
    refine ⟨?_, same (earlier member) found⟩
    rcases kept.attempt with equal | ⟨-, -, grown⟩ <;> omega
  case verifying =>
    intro row plan writeId verifying other id landed member
    rcases h.verifying row plan writeId (kept.verifying row plan writeId verifying) other id
      landed (earlier member) with own | found
    · exact Or.inl own
    · exact Or.inr (same (earlier member) found)

theorem CommitsHidden.moved (h : CommitsHidden call state) (moved : Moved call state next)
    : CommitsHidden call next := by
  cases moved with
  | quiet kept => exact h.quiet kept
  | commits row plan writeId landed confirmed log basis attempt phase =>
    have before := h.early (by rw [confirmed]; rfl)
    refine ⟨by rw [attempt]; exact h.numbered, ?_, ?_, ?_⟩
    · intro selecting
      rcases phase with same | same <;> rw [same] at selecting <;> cases selecting
    · intro early
      rcases phase with same | same <;> rw [same] at early <;> cases early
    intro row' plan' writeId' verifying other id landed' member
    have same : Phase.verifying row plan writeId = .verifying row' plan' writeId' := by
      rcases phase with same | same
      · exact same.symm.trans verifying
      · exact absurd (same.symm.trans verifying) nofun
    obtain ⟨-, rfl, rfl⟩ := Phase.verifying.inj same
    rw [log] at member
    rcases List.mem_append.mp member with inside | added
    · rw [basis, log]
      exact Or.inr (before other id landed' inside).2.longer
    · obtain ⟨rfl, rfl, -⟩ := Event.committed.inj (List.mem_singleton.mp added)
      exact Or.inl ⟨rfl, rfl⟩
  | unconfirmed row plan writeId shown verifying log hidden repeatable basis more attempt phase =>
    have numbered := h.numbered
    refine ⟨by omega, ?_, ?_, ?_⟩
    · intro selecting
      rw [phase] at selecting
      cases selecting
    · intro early other id landed member
      rw [log] at member
      have inside : .committed other id landed ∈ state.log := by
        rcases List.mem_append.mp member with inside | added
        · exact inside
        · simp at added
      refine ⟨by omega, ?_⟩
      rw [basis, log]
      rcases h.verifying row plan writeId verifying other id landed inside with
        ⟨rfl, rfl⟩ | found
      · refine ⟨repeatable, shown, ?_, hidden⟩
        exact (List.singleton_sublist.mpr inside).append (List.Sublist.refl [_])
      · exact found.longer
    · intro row' plan' writeId' verifying'
      rw [phase] at verifying'
      cases verifying'

theorem commitsHidden_of_reachable (h : (system call).Reachable state)
    : CommitsHidden call state := by
  refine System.Reachable.invariant ?_ (fun _ _ _ holds taken => holds.moved (step_moved taken)) h
  rintro start ⟨-, attempt, phase, log⟩
  exact ⟨by omega, by simp [log], by simp [log], by simp [log]⟩

-- The attempt that failed

/-- A run from a state whose attempt has not been left has committed nothing since, unless it
has come to this attempt's own commit.
-/
structure SinceThen (start state : State) : Prop where
  attempt : start.attempt ≤ state.attempt
  commits : state.attempt = start.attempt → state.phase.early = true
    → state.log.filter Event.isCommit = start.log.filter Event.isCommit

theorem SinceThen.moved {start : State} (h : SinceThen start state) (moved : Moved call state next)
    : SinceThen start next := by
  cases moved with
  | quiet kept =>
    obtain ⟨events, log, plain⟩ := kept.logged
    have none_added : events.filter Event.isCommit = [] := by
      rw [List.filter_eq_nil_iff]
      intro event member
      simp [plain event member]
    have attempts := h.attempt
    constructor
    · rcases kept.attempt with same | ⟨-, -, grown⟩ <;> omega
    intro same early
    rw [log, List.filter_append, none_added, List.append_nil]
    apply h.commits _ (kept.early early)
    rcases kept.attempt with equal | ⟨-, -, grown⟩ <;> omega
  | commits row plan writeId landed confirmed log basis attempt phase =>
    constructor
    · rw [attempt]
      exact h.attempt
    · intro same early
      rcases phase with ended | ended <;> rw [ended] at early <;> cases early
  | unconfirmed row plan writeId shown verifying log hidden repeatable basis more attempt phase =>
    have attempts := h.attempt
    constructor
    · omega
    · intro same
      omega

/-- A conflict: the attempt that failed has committed nothing, and each commit of an earlier
attempt was of a plan that may be repeated and was read back without being shown; so a call
of one attempt, or of plans that may not be repeated, has committed nothing at all.
-/
theorem conflict_attempt_uncommitted (call : Call) (state : State)
    (reached : (system call).Reachable state) (conflict : state.phase = .failed .conflict)
    : (∀ start, (system call).Reaches start state → start.attempt = state.attempt
        → state.log.filter Event.isCommit = start.log.filter Event.isCommit)
      ∧ ∀ plan writeId landed, .committed plan writeId landed ∈ state.log
        → 1 < state.attempt ∧ 1 < call.attempts
          ∧ FoundHidden call state.basis state.log plan writeId landed := by
  have early : state.phase.early = true := by
    rw [conflict]
    rfl
  refine ⟨?_, ?_⟩
  · intro start run same
    have since : SinceThen start state := by
      apply System.ReachesUnder.preserves _ run ⟨le_rfl, fun _ _ => rfl⟩
      intro before label after holds _ taken
      exact holds.moved (step_moved taken)
    exact since.commits same.symm early
  · intro plan writeId landed member
    have hidden := commitsHidden_of_reachable reached
    obtain ⟨later, found⟩ := hidden.early early plan writeId landed member
    exact ⟨later, by have := hidden.numbered.2; omega, found⟩

-- A conflict after a commit

def archiving : Call where
  plan _ _ := some (.update (.ofFields [("archived", .bool true)]) .idempotent)
  attempts := 3
  expectedRow := none
  «matches» _ := true
  matchFields := []
  wholeRow := false
  verifyAlso _ := true

def archivePlan : Plan := .update (.ofFields [("archived", .bool true)]) .idempotent

def unarchived : Record := .ofFields [("id", .str "m"), ("contentHash", .str "old")]

/-- Another writer's update of the archived row: its content hash moves, the archive stays. -/
def rewritten : Record :=
  .ofFields [("id", .str "m"), ("contentHash", .str "new"), ("archived", .bool true)]

/-- The first attempt lands, another writer commits before it is read back, and the second
attempt finds the row changed.
-/
def landedThenConflict : List Label := [
  .advance, .advance, .advance, .stage "w", .advance, .commit true true,
  .other (some rewritten), .advance, .advance, .advance]

def conflicted : State where
  stored := some rewritten
  basis := some unarchived
  attempt := 2
  phase := .failed .conflict
  log := [.planned (some unarchived) archivePlan, .committed archivePlan "w" true, .otherCommit,
    .readBack (some rewritten)]

theorem conflicted_reachable : (system archiving).Reachable conflicted := by
  have finished : (system archiving).run
      { stored := some unarchived, basis := none, attempt := 1, phase := .selecting, log := [] }
      landedThenConflict = some conflicted := by
    decide
  exact System.reachable_of_run ⟨rfl, rfl, rfl, rfl⟩ finished

/-- A call fails with a conflict although its first attempt's write landed and is on the row. -/
theorem conflict_after_landed_write
    : (system archiving).Reachable conflicted ∧ conflicted.phase = .failed .conflict
      ∧ .committed archivePlan "w" true ∈ conflicted.log
      ∧ conflicted.stored.bind (fun row => row.get "archived") = some (.bool true)
      ∧ unarchived.get "archived" = none :=
  ⟨conflicted_reachable, rfl, by decide, by decide, by decide⟩

/-- Witness: the commit of the first attempt was found hidden. -/
theorem conflict_attempt_uncommitted_archiving
    : conflicted.phase = .failed .conflict
      ∧ FoundHidden archiving conflicted.basis conflicted.log archivePlan "w" true :=
  ⟨rfl, ((conflict_attempt_uncommitted archiving conflicted conflicted_reachable rfl).2
    archivePlan "w" true (by decide)).2.2⟩

end Flair.WriteBack
