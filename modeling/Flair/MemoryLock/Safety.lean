import Flair.MemoryLock.Calls

/-! Safety of the Memory write lock over every interleaving of its calls: live holders share
no id, ids are held all or none, each taken key is released once and only after the call's
open work has settled, and a token is accepted only while its holder is live.
-/

namespace Flair.MemoryLock

open Dynamic KeyLedger Transition

-- What holds of one call

def revokedToken : TokenState where
  live := false
  admitting := false
  scopeOpen := false

def LockCall.Staged (call : LockCall) : Prop :=
  match call.stage with
  | .idle | .checking _ => call.acquired = [] ∧ call.token = none
  | .locking _ left => call.ids = call.acquired.reverse ++ left ∧ call.token = none
  | .backingOff _ => call.token = none
  | .running | .settled _ =>
    call.ids = call.acquired.reverse
      ∧ ∃ scopeOpen, call.token = some { live := true, admitting := true, scopeOpen }
  | .draining _ _ =>
    call.ids = call.acquired.reverse
      ∧ ∃ scopeOpen, call.token = some { live := true, admitting := false, scopeOpen }
  | .releasing _ => call.token = some revokedToken
  | .returned _ => call.acquired = [] ∧ (call.token = none ∨ call.token = some revokedToken)

structure CallSound (call : LockCall) : Prop where
  ids : call.ids.Nodup
  acquired : call.acquired.Nodup
  staged : call.Staged

theorem idleCall_sound : CallSound idleCall where
  ids := List.nodup_nil
  acquired := List.nodup_nil
  staged := ⟨rfl, rfl⟩

variable {call : LockCall}

theorem CallSound.held_of_live (h : CallSound call) (live : call.Live)
    : call.ids = call.acquired.reverse := by
  obtain ⟨token, minted, alive⟩ := live
  have staged := h.staged
  unfold LockCall.Staged at staged
  split at staged
  · simp [staged.2] at minted
  · simp [staged.2] at minted
  · simp [staged.2] at minted
  · simp [staged] at minted
  · exact staged.1
  · exact staged.1
  · exact staged.1
  · rw [staged] at minted
    cases minted
    cases alive
  · rcases staged.2 with none | dead
    · simp [none] at minted
    · rw [dead] at minted
      cases minted
      cases alive

theorem CallSound.nextAttempt (ids : call.ids.Nodup) (nothing : call.acquired = [])
    (noToken : call.token = none) (attempt : Nat)
    : CallSound (nextAttempt call attempt) := by
  refine ⟨ids, by simp [MemoryLock.nextAttempt, nothing], ?_⟩
  by_cases within : attempt < call.attempts
  · simp [LockCall.Staged, MemoryLock.nextAttempt, within, nothing, noToken]
  · simp [LockCall.Staged, MemoryLock.nextAttempt, within, nothing, noToken]

theorem startCall_sound (store : Option Nat) (ids : List String) (attempts : Nat)
    : CallSound (startCall store ids attempts) ∧ (startCall store ids attempts).keys = [] := by
  have unavailable : CallSound { idleCall with stage := .returned .unavailable } :=
    ⟨List.nodup_nil, List.nodup_nil, rfl, Or.inl rfl⟩
  unfold startCall
  split
  · rename_i store id rest normalized
    refine ⟨CallSound.nextAttempt ?_ rfl rfl 0, rfl⟩
    exact normalized ▸ normalizeIds_nodup ids
  · exact ⟨unavailable, rfl⟩

variable {label : LockLabel}

theorem callStep_sound {next : LockCall} (h : CallSound call)
    (taken : callStep call label = some next)
    : CallSound next ∧ next.keys = call.keys := by
  obtain ⟨ids, acquired, staged⟩ := h
  cases label with
  | start caller store wanted attempts =>
    simp only [callStep] at taken
    split at taken
    · rename_i at_idle
      cases taken
      obtain ⟨sound, nothing⟩ := startCall_sound store wanted attempts
      simp only [LockCall.Staged, at_idle] at staged
      have none_held : call.keys = [] := by simp [staged.1]
      exact ⟨sound, nothing.trans none_held.symm⟩
    · cases taken
  | check caller marked =>
    simp only [callStep] at taken
    split at taken
    · rename_i attempt at_checking
      cases taken
      simp only [LockCall.Staged, at_checking] at staged
      refine ⟨⟨ids, acquired, ?_⟩, rfl⟩
      unfold LockCall.Staged
      cases call.ids.find? marked with
      | none => simp [staged.1, staged.2]
      | some id => simp [staged.1, staged.2]
    · cases taken
  | mint caller =>
    simp only [callStep] at taken
    split at taken
    · rename_i attempt at_locking
      cases taken
      simp only [LockCall.Staged, at_locking, List.append_nil] at staged
      exact ⟨⟨ids, acquired, staged.1, false, rfl⟩, rfl⟩
    · cases taken
  | finish caller =>
    simp only [callStep] at taken
    split at taken
    · rename_i attempt at_backingOff nothing
      cases taken
      simp only [LockCall.Staged, at_backingOff] at staged
      exact ⟨CallSound.nextAttempt ids nothing staged _, rfl⟩
    · rename_i outcome at_releasing nothing
      cases taken
      simp only [LockCall.Staged, at_releasing] at staged
      exact ⟨⟨ids, acquired, nothing, Or.inr staged⟩, rfl⟩
    · cases taken
  | settle caller ok =>
    simp only [callStep] at taken
    split at taken
    · rename_i at_running
      cases taken
      simp only [LockCall.Staged, at_running] at staged
      exact ⟨⟨ids, acquired, staged⟩, rfl⟩
    · cases taken
  | closeScope caller failed =>
    simp only [callStep] at taken
    split at taken
    · rename_i live admitting minted
      cases taken
      refine ⟨⟨ids, acquired, ?_⟩, rfl⟩
      unfold LockCall.Staged at staged ⊢
      cases at_stage : call.stage <;> simp_all [revokedToken]
    · cases taken
  | close caller =>
    simp only [callStep] at taken
    split at taken
    · rename_i ok token at_settled minted
      cases taken
      simp only [LockCall.Staged, at_settled] at staged
      obtain ⟨all, scopeOpen, same⟩ := staged
      obtain rfl := Option.some.inj (minted.symm.trans same)
      exact ⟨⟨ids, acquired, all, scopeOpen, rfl⟩, rfl⟩
    · cases taken
  | revoke caller =>
    simp only [callStep] at taken
    split at taken
    · rename_i ok scopeFailed live admitting at_draining minted
      cases taken
      simp only [LockCall.Staged, at_draining] at staged
      obtain ⟨-, scopeOpen, same⟩ := staged
      obtain ⟨rfl, rfl, rfl⟩ := TokenState.mk.inj (Option.some.inj (minted.symm.trans same))
      exact ⟨⟨ids, acquired, rfl⟩, rfl⟩
    · cases taken
  | take caller => cases taken
  | unlock caller => cases taken
  | openScope caller => cases taken

-- What holds of the whole lock

/-- Every call is sound, the ledger's holders are what the calls have acquired, and takings
and releases balance.
-/
structure LockInv (state : LockState) : Prop where
  calls : ∀ caller, CallSound (state.call caller)
  held : ∀ caller, state.ledger.HoldsExactly caller (state.call caller).keys
  balanced : state.ledger.Balanced

variable {state : LockState} {caller : Nat}

theorem LockInv.put {ledger : Ledger LockKey Nat} (h : LockInv state) (sound : CallSound call)
    (own : ledger.HoldsExactly caller call.keys)
    (others : ∀ other, other ≠ caller → ledger.HoldsExactly other (state.call other).keys)
    (balanced : ledger.Balanced)
    : LockInv ({ state with ledger }.put caller call) := by
  refine ⟨?_, ?_, balanced⟩
  · intro other
    by_cases same : other = caller
    · subst same
      simpa [LockState.put] using sound
    · simpa [LockState.put, same] using h.calls other
  · intro other
    by_cases same : other = caller
    · subst same
      simpa [LockState.put] using own
    · simpa [LockState.put, same] using others other same

theorem LockInv.change (h : LockInv state) (sound : CallSound call)
    (same : call.keys = (state.call caller).keys)
    : LockInv (state.put caller call) := by
  have own : state.ledger.HoldsExactly caller call.keys := same ▸ h.held caller
  exact h.put sound own (fun other _ => h.held other) h.balanced

variable {next : LockState}

/-- A key tried and taken is a new one of the call's; a key tried and missed ends the attempt
with what was taken before it.
-/
theorem LockInv.take (h : LockInv state) (taken : takeStep state caller = some next)
    : LockInv next := by
  have sound := h.calls caller
  obtain ⟨ids, acquired, staged⟩ := sound
  unfold takeStep at taken
  dsimp only at taken
  split at taken
  · rename_i attempt id left at_locking
    simp only [LockCall.Staged, at_locking] at staged
    obtain ⟨split_ids, noToken⟩ := staged
    split at taken
    · rename_i ledger locked
      cases taken
      have fresh : id ∉ (state.call caller).acquired := by
        have distinct := split_ids ▸ ids
        rw [List.nodup_append] at distinct
        intro again
        exact distinct.2.2 id (List.mem_reverse.mpr again) id List.mem_cons_self rfl
      refine h.put ⟨ids, List.nodup_cons.mpr ⟨fresh, acquired⟩, ?_⟩ ?_ ?_
        (h.balanced.take locked)
      · exact ⟨by simp [split_ids], noToken⟩
      · exact (h.held caller).take locked
      · exact fun other different => (h.held other).take_other locked different
    · cases taken
      exact h.change ⟨ids, acquired, noToken⟩ rfl
  · cases taken

theorem LockInv.unlock (h : LockInv state) (taken : unlockStep state caller = some next)
    : LockInv next := by
  obtain ⟨ids, acquired, staged⟩ := h.calls caller
  have releases {id : String} {rest : List String}
      (latest : (state.call caller).acquired = id :: rest)
      (tokenOnly : { state.call caller with acquired := rest }.Staged)
      : LockInv ({
          state with ledger := state.ledger.unlock caller ((state.call caller).store, id)
        }.put caller { state.call caller with acquired := rest }) := by
    rw [latest] at acquired
    obtain ⟨gone, distinct⟩ := List.nodup_cons.mp acquired
    have own := h.held caller
    have keys : (state.call caller).keys = ((state.call caller).store, id)
        :: { state.call caller with acquired := rest }.keys := by
      simp [latest]
    rw [keys] at own
    have held : state.ledger.holder ((state.call caller).store, id) = some caller :=
      (own _).mpr List.mem_cons_self
    refine h.put ⟨ids, distinct, tokenOnly⟩ (own.release ?_) ?_ (h.balanced.release held)
    · simpa [LockCall.keys] using gone
    · exact fun other different => (h.held other).release_other held different
  unfold unlockStep at taken
  dsimp only at taken
  split at taken
  · rename_i attempt id rest at_backingOff latest
    cases taken
    simp only [LockCall.Staged, at_backingOff] at staged
    exact releases latest (by simpa [LockCall.Staged, at_backingOff] using staged)
  · rename_i outcome id rest at_releasing latest
    cases taken
    simp only [LockCall.Staged, at_releasing] at staged
    exact releases latest (by simpa [LockCall.Staged, at_releasing] using staged)
  · cases taken

theorem admitLockedScope_eq_ok (h : admitLockedScope state (some caller) = .ok next)
    : ∃ token, (state.call caller).token = some token ∧ token.live = true
        ∧ token.admitting = true ∧ token.scopeOpen = false
        ∧ next = state.put caller {
            state.call caller with token := some { token with scopeOpen := true } } := by
  cases minted : (state.call caller).token with
  | none => simp [admitLockedScope, assertMemoryWriteLockToken, tokenState, minted] at h
  | some token =>
    obtain ⟨live, admitting, scopeOpen⟩ := token
    cases live <;> cases admitting <;> cases scopeOpen <;>
      simp_all [admitLockedScope, assertMemoryWriteLockToken, tokenState]

theorem LockInv.admits (h : LockInv state)
    (admits : admitLockedScope state (some caller) = .ok next)
    : LockInv next := by
  obtain ⟨token, minted, live, admitting, -, rfl⟩ := admitLockedScope_eq_ok admits
  obtain ⟨ids, acquired, staged⟩ := h.calls caller
  refine h.change ⟨ids, acquired, ?_⟩ rfl
  obtain ⟨alive, open_to, scopeOpen⟩ := token
  obtain rfl : alive = true := live
  obtain rfl : open_to = true := admitting
  unfold LockCall.Staged at staged ⊢
  cases at_stage : (state.call caller).stage <;> simp_all [revokedToken]

theorem LockInv.step (h : LockInv state) (taken : lockStep state label = some next)
    : LockInv next := by
  have plain (step : (callStep (state.call label.caller) label).map (state.put label.caller)
        = some next)
      : LockInv next := by
    obtain ⟨call, stepped, rfl⟩ := Option.map_eq_some_iff.mp step
    obtain ⟨sound, same⟩ := callStep_sound (h.calls label.caller) stepped
    exact h.change sound same
  cases label with
  | take caller => exact h.take taken
  | unlock caller => exact h.unlock taken
  | openScope caller =>
    simp only [lockStep] at taken
    split at taken
    · rename_i admitted admits
      cases taken
      exact h.admits admits
    · cases taken
      exact h
  | start _ _ _ _ => exact plain taken
  | check _ _ => exact plain taken
  | mint _ => exact plain taken
  | finish _ => exact plain taken
  | settle _ _ => exact plain taken
  | closeScope _ _ => exact plain taken
  | close _ => exact plain taken
  | revoke _ => exact plain taken

-- Whole runs

def LockCall.Outside (call : LockCall) : Prop :=
  call.stage = .idle ∨ (∃ attempt, call.stage = .checking attempt)
    ∨ ∃ outcome, call.stage = .returned outcome

def LockCall.Finished (call : LockCall) : Prop :=
  (∃ outcome, call.stage = .releasing outcome) ∧ call.token = some revokedToken

/-- What the lock promises in a state: live holders share no id; a live holder holds every
id it asked for, and a call that waits or has returned holds none; each key was taken as
often as it was released, once more while it is held; a key is released by an attempt that
minted no token, or by a finished call; a token is accepted only while its holder is live
and holds the ids.
-/
structure LockSafe (state : LockState) : Prop where
  exclusive
    : ∀ left right, left ≠ right → (state.call left).Live → (state.call right).Live
      → (state.call left).store = (state.call right).store
      → ∀ id ∈ (state.call left).ids, id ∉ (state.call right).ids
  all
    : ∀ caller, (state.call caller).Live → ∀ id ∈ (state.call caller).ids,
        state.ledger.holder ((state.call caller).store, id) = some caller
  nothing
    : ∀ caller, (state.call caller).Outside → ∀ key, state.ledger.holder key ≠ some caller
  once
    : ∀ caller key, state.ledger.log.count (.locked caller key)
        = state.ledger.log.count (.unlocked caller key)
          + if state.ledger.holder key = some caller then 1 else 0
  released
    : ∀ caller key label next, lockStep state label = some next
      → state.ledger.holder key = some caller → next.ledger.holder key ≠ some caller
      → (state.call caller).token = none ∨ (state.call caller).Finished
  accepted
    : ∀ held store ids, assertMemoryWriteLockToken state held store ids = .ok ()
      → ∃ caller, held = some caller ∧ (state.call caller).Live
          ∧ (store = none ∨ store = some (state.call caller).store)
          ∧ ∀ id ∈ ids, state.ledger.holder ((state.call caller).store, id) = some caller

theorem LockInv.holds_all (h : LockInv state) (live : (state.call caller).Live) {id : String}
    (member : id ∈ (state.call caller).ids)
    : state.ledger.holder ((state.call caller).store, id) = some caller := by
  have all := (h.calls caller).held_of_live live
  apply (h.held caller _).mpr
  simpa [LockCall.keys, all] using member

theorem CallSound.nothing_of_outside (h : CallSound call) (outside : call.Outside)
    : call.acquired = [] := by
  have staged := h.staged
  rcases outside with at_idle | ⟨attempt, at_checking⟩ | ⟨outcome, at_returned⟩
  · simp only [LockCall.Staged, at_idle] at staged
    exact staged.1
  · simp only [LockCall.Staged, at_checking] at staged
    exact staged.1
  · simp only [LockCall.Staged, at_returned] at staged
    exact staged.1

theorem LockInv.released {key : LockKey} (h : LockInv state)
    (taken : lockStep state label = some next) (before : state.ledger.holder key = some caller)
    (after : next.ledger.holder key ≠ some caller)
    : (state.call caller).token = none ∨ (state.call caller).Finished := by
  have plain (step : (callStep (state.call label.caller) label).map (state.put label.caller)
        = some next)
      : (state.call caller).token = none ∨ (state.call caller).Finished := by
    obtain ⟨call, -, rfl⟩ := Option.map_eq_some_iff.mp step
    exact absurd before after
  cases label with
  | take other =>
    simp only [lockStep, takeStep] at taken
    split at taken
    · split at taken
      · rename_i ledger locked
        cases taken
        obtain ⟨free, holder, -⟩ := Ledger.tryLock_eq_some locked
        refine absurd ?_ after
        simp only [LockState.put, holder]
        rw [Function.update_of_ne]
        · exact before
        · rintro rfl
          rw [free] at before
          cases before
      · cases taken
        exact absurd before after
    · cases taken
  | unlock other =>
    have own := h.held other
    have staged := (h.calls other).staged
    have freed {id : String} {rest : List String}
        (latest : (state.call other).acquired = id :: rest)
        (gone : (state.ledger.unlock other ((state.call other).store, id)).holder key
          ≠ some caller)
        : caller = other := by
      have held : state.ledger.holder ((state.call other).store, id) = some other :=
        (own _).mpr (by simp [latest])
      by_cases same : key = ((state.call other).store, id)
      · subst same
        exact Option.some.inj (before.symm.trans held)
      · refine absurd ?_ gone
        simpa [Ledger.unlock, same] using before
    simp only [lockStep, unlockStep] at taken
    split at taken
    · rename_i attempt id rest at_backingOff latest
      cases taken
      obtain rfl := freed latest after
      simp only [LockCall.Staged, at_backingOff] at staged
      exact Or.inl staged
    · rename_i outcome id rest at_releasing latest
      cases taken
      obtain rfl := freed latest after
      simp only [LockCall.Staged, at_releasing] at staged
      exact Or.inr ⟨⟨outcome, at_releasing⟩, staged⟩
    · cases taken
  | openScope other =>
    simp only [lockStep] at taken
    split at taken
    · rename_i admits
      cases taken
      obtain ⟨token, -, -, -, -, rfl⟩ := admitLockedScope_eq_ok admits
      exact absurd before after
    · cases taken
      exact absurd before after
  | start _ _ _ _ => exact plain taken
  | check _ _ => exact plain taken
  | mint _ => exact plain taken
  | finish _ => exact plain taken
  | settle _ _ => exact plain taken
  | closeScope _ _ => exact plain taken
  | close _ => exact plain taken
  | revoke _ => exact plain taken

theorem assertMemoryWriteLockToken_eq_ok {held store : Option Nat} {ids : List String}
    (h : assertMemoryWriteLockToken state held store ids = .ok ())
    : ∃ caller, held = some caller ∧ (state.call caller).Live
        ∧ (store = none ∨ store = some (state.call caller).store)
        ∧ ∀ id ∈ ids, id ∈ (state.call caller).ids := by
  cases held with
  | none => simp [assertMemoryWriteLockToken, tokenState] at h
  | some caller =>
    cases minted : (state.call caller).token with
    | none => simp [assertMemoryWriteLockToken, tokenState, minted] at h
    | some token =>
      simp only [assertMemoryWriteLockToken, tokenState, minted] at h
      split at h
      · cases h
      rename_i live
      split at h
      · cases h
      rename_i right_store
      split at h
      · cases h
      rename_i covered
      push Not at right_store covered
      refine ⟨caller, rfl, ⟨token, minted, by simpa using live⟩, ?_, covered⟩
      by_cases given : store = none
      · exact Or.inl given
      · exact Or.inr (right_store given)

theorem LockInv.safe (h : LockInv state) : LockSafe state := by
  refine ⟨?_, fun caller live id => h.holds_all live, ?_, h.balanced,
    fun caller key label next taken => h.released taken, ?_⟩
  · intro left right different leftLive rightLive sameStore id member shared
    have one := h.holds_all leftLive member
    have two := h.holds_all rightLive shared
    rw [sameStore] at one
    exact different (Option.some.inj (one.symm.trans two))
  · intro caller outside key held
    have member := (h.held caller key).mp held
    simp [(h.calls caller).nothing_of_outside outside] at member
  · intro held store ids ok
    obtain ⟨caller, rfl, live, right_store, covered⟩ := assertMemoryWriteLockToken_eq_ok ok
    exact ⟨caller, rfl, live, right_store, fun id member => h.holds_all live (covered id member)⟩

/-- Every state any number of lock calls can reach is safe. -/
theorem memory_write_lock_safe {state : LockState} (reached : memoryLocks.Reachable state)
    : LockSafe state := by
  have inv : LockInv state := by
    refine reached.invariant ?_ (fun _ _ _ h taken => h.step taken)
    rintro start ⟨fresh, idle⟩
    refine ⟨?_, ?_, ?_⟩
    · intro caller
      rw [idle]
      exact idleCall_sound
    · intro caller key
      rw [idle, fresh]
      simp [Ledger.fresh, idleCall]
    · rw [fresh]
      exact Ledger.balanced_fresh
  exact inv.safe

def freshLocks : LockState where
  ledger := Ledger.fresh
  call _ := idleCall

/-- One caller holds two ids with a scope open while another misses the one they share. -/
theorem contended_lock_safe
    : ∃ state, memoryLocks.run freshLocks [
          .start 0 (some 7) ["b", "a", "b"] 200, .check 0 (fun _ => false), .take 0, .take 0,
          .mint 0, .openScope 0, .start 1 (some 7) ["b", "c"] 1, .check 1 (fun _ => false),
          .take 1, .settle 0 true, .finish 1, .closeScope 0 false, .close 0, .revoke 0,
          .unlock 0] = some state
        ∧ (state.call 1).stage = .returned .busy ∧ LockSafe state := by
  let labels : List LockLabel := [
    .start 0 (some 7) ["b", "a", "b"] 200, .check 0 (fun _ => false), .take 0, .take 0,
    .mint 0, .openScope 0, .start 1 (some 7) ["b", "c"] 1, .check 1 (fun _ => false),
    .take 1, .settle 0 true, .finish 1, .closeScope 0 false, .close 0, .revoke 0, .unlock 0]
  have seen : (memoryLocks.run freshLocks labels).map (fun state => (state.call 1).stage)
      = some (.returned .busy) := by
    decide
  obtain ⟨state, run, busy⟩ := Option.map_eq_some_iff.mp seen
  have start : memoryLocks.initial freshLocks := ⟨rfl, fun _ => rfl⟩
  exact ⟨state, run, busy, memory_write_lock_safe (System.reachable_of_run start run)⟩

end Flair.MemoryLock
