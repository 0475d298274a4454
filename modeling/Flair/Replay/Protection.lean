import Mathlib.Tactic.Linarith
import Flair.Replay.Claims

/-! A signed request is used once: while the timestamp of a request that was let through still
passes the freshness check, no other request with its nonce is, and a claim that met a failure
of the store refuses its request.
-/

namespace Flair.Replay

open KeyLedger Transition

variable {settings : ReplaySettings}

-- What holds of one request

def RequestStage.reading : RequestStage → Option Rat
  | .writing readAt | .committing readAt _ => some readAt
  | _ => none

def RequestStage.wrote : RequestStage → Option (Rat × Rat)
  | .unlocking (.recorded readAt writtenAt) | .letThrough readAt writtenAt _ =>
    some (readAt, writtenAt)
  | _ => none

def RequestStage.decided : RequestStage → Option Rat
  | .letThrough _ _ decidedAt => some decidedAt
  | _ => none

namespace Request

@[simp] def heldKeys (request : Request) : List String := if request.holds then [request.key] else []

/-- The timestamp has passed the freshness check, at a time not after `now`. -/
structure Passed (settings : ReplaySettings) (request : Request) (now : Rat) : Prop where
  early : request.ts - settings.windowMs request.scope ≤ request.passedAt
  past : request.passedAt ≤ now

/-- The request holds its lock, and its guard's window fits the retention. -/
structure Claiming (settings : ReplaySettings) (request : Request) (now : Rat) : Prop where
  passed : request.Passed settings now
  fits : settings.windowGap request.scope = false
  holds : request.holds = true

@[simp] def Sound (settings : ReplaySettings) (request : Request) (now : Rat) : Prop :=
  match request.stage with
  | .idle => request.holds = false ∧ request.storeFailed = false
  | .prechecked | .claiming =>
    request.Passed settings now ∧ request.holds = false ∧ request.storeFailed = false
  | .locked => request.Claiming settings now ∧ request.storeFailed = false
  | .writing readAt =>
    request.Claiming settings readAt ∧ readAt ≤ now ∧ request.storeFailed = false
  | .committing readAt writtenAt =>
    request.Claiming settings readAt ∧ (readAt ≤ writtenAt ∧ writtenAt ≤ now)
      ∧ request.storeFailed = false
  | .unlocking (.recorded readAt writtenAt) =>
    request.Claiming settings readAt ∧ (readAt ≤ writtenAt ∧ writtenAt ≤ now)
      ∧ request.storeFailed = false
  | .unlocking .replay => request.holds = true ∧ request.storeFailed = false
  | .unlocking .threw => request.holds = true
  | .letThrough readAt writtenAt decidedAt =>
    request.Passed settings readAt ∧ settings.windowGap request.scope = false
      ∧ (readAt ≤ writtenAt ∧ writtenAt ≤ decidedAt ∧ decidedAt ≤ now)
      ∧ request.holds = false ∧ request.storeFailed = false
  | .refused reason => request.storeFailed = true → reason = .replayStoreUnavailable

variable {request : Request} {now : Rat}

theorem Passed.later {later : Rat} (h : request.Passed settings now) (after : now ≤ later)
    : request.Passed settings later :=
  ⟨h.early, h.past.trans after⟩

theorem Passed.goto (h : request.Passed settings now) (stage : RequestStage)
    : (request.goto stage).Passed settings now :=
  ⟨h.early, h.past⟩

theorem Claiming.goto (h : request.Claiming settings now) (stage : RequestStage)
    : (request.goto stage).Claiming settings now :=
  ⟨h.passed.goto stage, h.fits, h.holds⟩

theorem sound_unavailable (request : Request) (now : Rat)
    : (request.fail unavailable).Sound settings now := fun _ => rfl

theorem Sound.later {later : Rat} (h : request.Sound settings now) (after : now ≤ later)
    : request.Sound settings later := by
  unfold Sound at h ⊢
  split at h
  · exact h
  · exact ⟨h.1.later after, h.2⟩
  · exact ⟨h.1.later after, h.2⟩
  · exact ⟨⟨h.1.passed.later after, h.1.fits, h.1.holds⟩, h.2⟩
  · exact ⟨h.1, h.2.1.trans after, h.2.2⟩
  · exact ⟨h.1, ⟨h.2.1.1, h.2.1.2.trans after⟩, h.2.2⟩
  · exact ⟨h.1, ⟨h.2.1.1, h.2.1.2.trans after⟩, h.2.2⟩
  · exact h
  · exact h
  · exact ⟨h.1, h.2.1, ⟨h.2.2.1.1, h.2.2.1.2.1, h.2.2.1.2.2.trans after⟩, h.2.2.2⟩
  · exact h

theorem Sound.holds_of_reading {readAt : Rat} (h : request.Sound settings now)
    (reading : request.stage.reading = some readAt)
    : request.holds = true := by
  unfold Sound at h
  unfold RequestStage.reading at reading
  split at reading
  · rename_i stage
    simp only [stage] at h
    exact h.1.holds
  · rename_i stage
    simp only [stage] at h
    exact h.1.holds
  · cases reading

theorem Sound.decided_of_wrote {readAt writtenAt : Rat} (h : request.Sound settings now)
    (wrote : request.stage.wrote = some (readAt, writtenAt)) (free : request.holds = false)
    : ∃ decidedAt, request.stage.decided = some decidedAt ∧ decidedAt ≤ now := by
  unfold Sound at h
  unfold RequestStage.wrote at wrote
  split at wrote
  · rename_i stage
    simp only [stage] at h
    rw [h.1.holds] at free
    cases free
  · rename_i decidedAt stage
    simp only [stage] at h ⊢
    exact ⟨decidedAt, rfl, h.2.2.1.2.2⟩
  · cases wrote

theorem Sound.refused_of_failed (h : request.Sound settings now)
    (failed : request.storeFailed = true)
    : request.stage = .unlocking .threw ∨ request.stage = .refused .replayStoreUnavailable := by
  unfold Sound at h
  split at h
  · simp [h.2] at failed
  · simp [h.2.2] at failed
  · simp [h.2.2] at failed
  · simp [h.2] at failed
  · simp [h.2.2] at failed
  · simp [h.2.2] at failed
  · simp [h.2.2] at failed
  · simp [h.2] at failed
  · rename_i stage
    exact Or.inl stage
  · simp [h.2.2.2.2] at failed
  · rename_i reason stage
    rw [stage, h failed]
    exact Or.inr rfl

end Request

-- What holds of two requests

/-- The request was let through before the later read, which came after its row's time. -/
def Request.Outlived (request : Request) (writtenAt lateRead : Rat) : Prop :=
  writtenAt + replayRetentionMs ≤ lateRead
    ∧ ∃ decidedAt, request.stage.decided = some decidedAt ∧ decidedAt ≤ lateRead

structure Apart (earlier later : Request) : Prop where
  reading
    : ∀ readAt writtenAt lateRead, earlier.stage.wrote = some (readAt, writtenAt)
      → later.stage.reading = some lateRead → earlier.Outlived writtenAt lateRead
  wrote
    : ∀ readAt writtenAt lateRead lateWrite,
      earlier.stage.wrote = some (readAt, writtenAt)
      → later.stage.wrote = some (lateRead, lateWrite)
      → earlier.Outlived writtenAt lateRead ∨ later.Outlived lateWrite readAt

def Kept (rows : String → Option Rat) (now : Rat) (request : Request) : Prop :=
  ∀ readAt writtenAt, request.stage.wrote = some (readAt, writtenAt)
    → (∃ row, rows request.key = some row ∧ writtenAt ≤ row)
      ∨ writtenAt + replayRetentionMs ≤ now

structure ReplayInv (settings : ReplaySettings) (state : ReplayState) : Prop where
  held : ∀ id, state.ledger.HoldsExactly id (state.request id).heldKeys
  sound : ∀ id, (state.request id).Sound settings state.clock
  absent
    : ∀ id readAt, (state.request id).stage.reading = some readAt
      → state.rows (state.request id).key = none
  kept : ∀ id, Kept state.rows state.clock (state.request id)
  apart
    : ∀ id other, id ≠ other → (state.request id).key = (state.request other).key
      → Apart (state.request id) (state.request other)

def Request.Quiet (request : Request) : Prop :=
  request.stage.reading = none ∧ request.stage.wrote = none

theorem Request.Quiet.apart {earlier later : Request} (h : earlier.Quiet ∨ later.Quiet)
    : Apart earlier later := by
  rcases h with ⟨reading, wrote⟩ | ⟨reading, wrote⟩
  · refine ⟨?_, ?_⟩
    · intro readAt writtenAt lateRead known
      rw [wrote] at known
      cases known
    · intro readAt writtenAt lateRead lateWrite known
      rw [wrote] at known
      cases known
  · refine ⟨?_, ?_⟩
    · intro readAt writtenAt lateRead _ known
      rw [reading] at known
      cases known
    · intro readAt writtenAt lateRead lateWrite _ known
      rw [wrote] at known
      cases known

variable {state : ReplayState} {id : Nat}

theorem ReplayInv.exclusive (h : ReplayInv settings state) {other : Nat} (different : id ≠ other)
    (same : (state.request id).key = (state.request other).key)
    (holds : (state.request id).holds = true)
    : (state.request other).holds = false := by
  cases also : (state.request other).holds with
  | false => rfl
  | true =>
    have mine : (state.request id).key ∈ (state.request id).heldKeys := by
      simp [holds]
    have disjoint := (h.held id).disjoint (h.held other) different mine
    simp [also, same] at disjoint

-- The step of one request

variable {request : Request}

theorem ReplayInv.update (h : ReplayInv settings state) (id : Nat) {ledger : Ledger String Nat}
    {rows : String → Option Rat} (mine : ledger.HoldsExactly id request.heldKeys)
    (others : ∀ other ≠ id, ledger.HoldsExactly other (state.request other).heldKeys)
    (sound : request.Sound settings state.clock)
    (absent : ∀ readAt, request.stage.reading = some readAt → rows request.key = none)
    (absentOthers : ∀ other ≠ id, ∀ readAt, (state.request other).stage.reading = some readAt
      → rows (state.request other).key = none)
    (kept : Kept rows state.clock request)
    (keptOthers : ∀ other ≠ id, Kept rows state.clock (state.request other))
    (apart : ∀ other ≠ id, request.key = (state.request other).key
      → Apart request (state.request other) ∧ Apart (state.request other) request)
    : ReplayInv settings ({ state with ledger, rows }.put id request) where
  held other := by
    by_cases same : other = id
    · subst same
      simpa [ReplayState.put] using mine
    · simpa [ReplayState.put, same] using others other same
  sound other := by
    by_cases same : other = id
    · subst same
      simpa [ReplayState.put] using sound
    · simpa [ReplayState.put, same] using h.sound other
  absent other readAt := by
    by_cases same : other = id
    · subst same
      simpa [ReplayState.put] using absent readAt
    · simpa [ReplayState.put, same] using absentOthers other same readAt
  kept other := by
    by_cases same : other = id
    · subst same
      simpa [ReplayState.put] using kept
    · simpa [ReplayState.put, same] using keptOthers other same
  apart first second different := by
    by_cases sameFirst : first = id
    · subst sameFirst
      simp only [ReplayState.put, Function.update_self, ne_eq, Ne.symm different,
        not_false_eq_true, Function.update_of_ne]
      intro sameKey
      exact (apart second (Ne.symm different) sameKey).1
    · by_cases sameSecond : second = id
      · subst sameSecond
        simp only [ReplayState.put, Function.update_self, ne_eq, sameFirst,
          not_false_eq_true, Function.update_of_ne]
        intro sameKey
        exact (apart first sameFirst sameKey.symm).2
      · simp only [ReplayState.put, ne_eq, sameFirst, sameSecond, not_false_eq_true,
          Function.update_of_ne]
        exact h.apart first second different

theorem ReplayInv.quiet (h : ReplayInv settings state) (id : Nat)
    (held : request.heldKeys = (state.request id).heldKeys)
    (sound : request.Sound settings state.clock) (quiet : request.Quiet)
    : ReplayInv settings (state.put id request) := by
  refine h.update id ?_ (fun other _ => h.held other) sound ?_
    (fun other _ => h.absent other) ?_ (fun other _ => h.kept other) ?_
  · rw [held]
    exact h.held id
  · intro readAt reading
    rw [quiet.1] at reading
    cases reading
  · intro readAt writtenAt wrote
    rw [quiet.2] at wrote
    cases wrote
  · intro other _ _
    exact ⟨Request.Quiet.apart (Or.inl quiet), Request.Quiet.apart (Or.inr quiet)⟩

theorem ReplayInv.setCache (h : ReplayInv settings state) (thread : Nat) (scope : ReplayScope)
    (cache : ReplayCache)
    : ReplayInv settings (state.setCache thread scope cache) :=
  ⟨h.held, h.sound, h.absent, h.kept, h.apart⟩

theorem ReplayInv.locks (h : ReplayInv settings state) (id : Nat) {ledger : Ledger String Nat}
    (mine : ledger.HoldsExactly id request.heldKeys)
    (others : ∀ other ≠ id, ledger.HoldsExactly other (state.request other).heldKeys)
    (sound : request.Sound settings state.clock) (key : request.key = (state.request id).key)
    (reading : request.stage.reading = none)
    (wrote : request.stage.wrote = none
      ∨ request.stage.wrote = (state.request id).stage.wrote
        ∧ (state.request id).stage.decided = none)
    : ReplayInv settings ({ state with ledger }.put id request) := by
  refine h.update id mine others sound ?_ (fun other _ => h.absent other) ?_
    (fun other _ => h.kept other) ?_
  · intro readAt known
    rw [reading] at known
    cases known
  · intro readAt writtenAt known
    rcases wrote with nothing | ⟨before, -⟩
    · rw [nothing] at known
      cases known
    · rw [before] at known
      rw [key]
      exact h.kept id readAt writtenAt known
  · intro other different sameKey
    rcases wrote with nothing | ⟨before, undecided⟩
    · exact ⟨Request.Quiet.apart (Or.inl ⟨reading, nothing⟩),
        Request.Quiet.apart (Or.inr ⟨reading, nothing⟩)⟩
    rw [key] at sameKey
    have one := h.apart id other (Ne.symm different) sameKey
    have two := h.apart other id different sameKey.symm
    -- a request not let through yet is no one's earlier request
    have notEarlier {writtenAt lateRead : Rat}
        : ¬ (state.request id).Outlived writtenAt lateRead := by
      rintro ⟨-, decidedAt, decided, -⟩
      rw [undecided] at decided
      cases decided
    refine ⟨⟨?_, ?_⟩, ⟨?_, ?_⟩⟩
    · rw [before]
      intro readAt writtenAt lateRead wrote known
      exact absurd (one.reading readAt writtenAt lateRead wrote known) notEarlier
    · rw [before]
      intro readAt writtenAt lateRead lateWrite wrote known
      rcases one.wrote readAt writtenAt lateRead lateWrite wrote known with early | late
      · exact absurd early notEarlier
      · exact Or.inr late
    · intro readAt writtenAt lateRead _ known
      rw [reading] at known
      cases known
    · rw [before]
      intro readAt writtenAt lateRead lateWrite known wrote
      rcases two.wrote readAt writtenAt lateRead lateWrite known wrote with early | late
      · exact Or.inl early
      · exact absurd late notEarlier

theorem ReplayInv.receive (h : ReplayInv settings state) (idle : (state.request id).stage = .idle)
    (thread : Nat) (scope : ReplayScope) (fields : Option (String × Rat))
    : ReplayInv settings
        (state.put id (receiveRequest settings state.clock thread scope fields)) := by
  have before := h.sound id
  simp only [Request.Sound, idle] at before
  cases fields with
  | none =>
    refine h.quiet id ?_ ?_ ⟨rfl, rfl⟩
    · simp [receiveRequest, idleRequest, before.1]
    · simp [receiveRequest, idleRequest]
  | some fields =>
    obtain ⟨nonce, ts⟩ := fields
    refine h.quiet id ?_ ?_ ?_
    · simp [receiveRequest, idleRequest, before.1]
    · simp only [Request.Sound, receiveRequest, idleRequest]
      cases refused : timestampRefusal (settings.windowMs scope) state.clock ts with
      | some refusal => simp
      | none =>
        unfold timestampRefusal at refused
        split at refused
        · cases refused
        split at refused
        · cases refused
        rename_i early
        refine ⟨⟨?_, le_refl _⟩, by simp⟩
        simp only [not_lt] at early
        linarith
    · simp only [Request.Quiet, receiveRequest]
      cases timestampRefusal (settings.windowMs scope) state.clock ts <;> exact ⟨rfl, rfl⟩

variable {next : ReplayState}

theorem ReplayInv.recollect (h : ReplayInv settings state) {valid : Bool}
    (taken : recollectStep settings state id valid = some next)
    : ReplayInv settings next := by
  simp only [recollectStep] at taken
  split at taken
  · rename_i stage
    cases taken
    have before := h.sound id
    simp only [Request.Sound, stage] at before
    refine (h.setCache _ _ _).quiet id ?_ ?_ ?_
    · split
      · rfl
      · split <;> rfl
    · split
      · simp [Request.refuse, Request.goto, before.2.2]
      · split
        · exact ⟨before.1.goto _, before.2⟩
        · simp [Request.refuse, Request.goto, before.2.2]
    · split
      · exact ⟨rfl, rfl⟩
      · split <;> exact ⟨rfl, rfl⟩
  · cases taken

variable {call : StoreCall}

theorem ReplayInv.lock (h : ReplayInv settings state) {gap : Bool}
    (taken : lockStep settings state id gap call = some next)
    : ReplayInv settings next := by
  have failed {stage : RequestStage} (quiet : stage.reading = none ∧ stage.wrote = none)
      (sound : ({ state.request id with claimedAt := state.clock }.fail stage).Sound settings
        state.clock)
      : ReplayInv settings
          (state.put id ({ state.request id with claimedAt := state.clock }.fail stage)) :=
    h.quiet id rfl sound quiet
  simp only [lockStep] at taken
  split at taken
  · cases taken
    exact failed ⟨rfl, rfl⟩ (fun _ => rfl)
  · rename_i stage
    have before := h.sound id
    simp only [Request.Sound, stage] at before
    obtain ⟨passed, notHeld, unfailed⟩ := before
    split at taken
    · cases taken
      exact failed ⟨rfl, rfl⟩ (fun _ => rfl)
    rename_i checked
    simp only [Bool.or_eq_true, not_or, Bool.not_eq_true] at checked
    split at taken
    · rename_i ledger locked
      cases taken
      refine h.locks id ?_ ?_ ?_ rfl rfl (Or.inl rfl)
      · have nothing : (state.request id).heldKeys = [] := by
          simp [notHeld]
        have mine := (h.held id).take locked
        rw [nothing] at mine
        exact mine
      · intro other different
        exact (h.held other).take_other locked different
      · exact ⟨⟨⟨passed.early, passed.past⟩, checked.1, rfl⟩, unfailed⟩
    · cases taken
      refine h.quiet id rfl ?_ ⟨rfl, rfl⟩
      simp [Request.refuse, Request.goto, unfailed]
  · cases taken

theorem ReplayInv.read (h : ReplayInv settings state) (taken : readStep state id call = some next)
    : ReplayInv settings next := by
  simp only [readStep] at taken
  split at taken
  · rename_i stage
    cases taken
    have before := h.sound id
    simp only [Request.Sound, stage] at before
    exact h.quiet id rfl before.1.holds ⟨rfl, rfl⟩
  · rename_i stage
    cases taken
    have before := h.sound id
    simp only [Request.Sound, stage] at before
    cases row : state.rows (state.request id).key with
    | some writtenAt => exact h.quiet id rfl ⟨before.1.holds, before.2⟩ ⟨rfl, rfl⟩
    | none =>
      have held : ((state.request id).goto (.writing state.clock)).heldKeys
          = (state.request id).heldKeys := rfl
      refine h.update id (held ▸ h.held id) (fun other _ => h.held other) ?_ ?_
        (fun other _ => h.absent other) ?_ (fun other _ => h.kept other) ?_
      · exact ⟨before.1.goto _, le_refl _, before.2⟩
      · intro readAt _
        exact row
      · intro readAt writtenAt known
        cases known
      · intro other different sameKey
        refine ⟨⟨?_, ?_⟩, ⟨?_, ?_⟩⟩
        · intro readAt writtenAt lateRead known
          cases known
        · intro readAt writtenAt lateRead lateWrite known
          cases known
        · intro readAt writtenAt lateRead wrote known
          cases known
          have free := h.exclusive (Ne.symm different) sameKey before.1.holds
          refine ⟨?_, (h.sound other).decided_of_wrote wrote free⟩
          rcases h.kept other readAt writtenAt wrote with ⟨late, there, -⟩ | outlived
          · rw [← sameKey] at there
            exact absurd (row.symm.trans there) (by simp)
          · exact outlived
        · intro readAt writtenAt lateRead lateWrite _ known
          cases known
  · cases taken

variable {readAt : Rat}

theorem ReplayInv.write (h : ReplayInv settings state)
    (stage : (state.request id).stage = .writing readAt)
    : ReplayInv settings
        (state.put id ((state.request id).goto (.committing readAt state.clock))) := by
  have before := h.sound id
  simp only [Request.Sound, stage] at before
  have reading : (state.request id).stage.reading = some readAt := by
    rw [stage]
    rfl
  have held : ((state.request id).goto (.committing readAt state.clock)).heldKeys
      = (state.request id).heldKeys := rfl
  refine h.update id (held ▸ h.held id) (fun other _ => h.held other) ?_ ?_
    (fun other _ => h.absent other) ?_ (fun other _ => h.kept other) ?_
  · exact ⟨before.1.goto _, ⟨before.2.1, le_refl _⟩, before.2.2⟩
  · intro _ _
    exact h.absent id readAt reading
  · intro _ _ known
    cases known
  · intro other different sameKey
    have two := h.apart other id different sameKey.symm
    refine ⟨⟨?_, ?_⟩, ⟨?_, ?_⟩⟩
    · intro _ _ _ known
      cases known
    · intro _ _ _ _ known
      cases known
    · intro earlyRead writtenAt lateRead wrote known
      cases known
      exact two.reading earlyRead writtenAt readAt wrote reading
    · intro _ _ _ _ _ known
      cases known

theorem ReplayInv.commit (h : ReplayInv settings state)
    (taken : commitStep state id call = some next)
    : ReplayInv settings next := by
  simp only [commitStep] at taken
  split at taken
  · rename_i readAt writtenAt stage
    have before := h.sound id
    simp only [Request.Sound, stage] at before
    obtain ⟨claiming, ⟨readFirst, written⟩, unfailed⟩ := before
    have reading : (state.request id).stage.reading = some readAt := by
      rw [stage]
      rfl
    have free {other : Nat} (different : other ≠ id)
        (sameKey : (state.request id).key = (state.request other).key)
        : (state.request other).holds = false :=
      h.exclusive (Ne.symm different) sameKey claiming.holds
    have notReading {other : Nat} (different : other ≠ id)
        (sameKey : (state.request id).key = (state.request other).key) (at_ : Rat)
        : (state.request other).stage.reading ≠ some at_ := by
      intro known
      have holds := (h.sound other).holds_of_reading known
      rw [free different sameKey] at holds
      cases holds
    have absentOthers (other : Nat) (different : other ≠ id) (at_ : Rat)
        (known : (state.request other).stage.reading = some at_)
        : Function.update state.rows (state.request id).key (some writtenAt)
            (state.request other).key = none := by
      by_cases sameKey : (state.request id).key = (state.request other).key
      · exact absurd known (notReading different sameKey at_)
      · rw [Function.update_of_ne (Ne.symm sameKey)]
        exact h.absent other at_ known
    have keptOthers (other : Nat) (different : other ≠ id)
        : Kept (Function.update state.rows (state.request id).key (some writtenAt)) state.clock
            (state.request other) := by
      intro earlyRead earlyWrite wrote
      by_cases sameKey : (state.request id).key = (state.request other).key
      · obtain ⟨outlived, -⟩ := (h.apart other id different sameKey.symm).reading earlyRead
          earlyWrite readAt wrote reading
        right
        linarith
      · rw [Function.update_of_ne (Ne.symm sameKey)]
        exact h.kept other earlyRead earlyWrite wrote
    have failed (rows : String → Option Rat)
        (absent : ∀ other ≠ id, ∀ at_, (state.request other).stage.reading = some at_
          → rows (state.request other).key = none)
        (kept : ∀ other ≠ id, Kept rows state.clock (state.request other))
        : ReplayInv settings
            ({ state with rows }.put id ((state.request id).fail (.unlocking .threw))) := by
      have held : ((state.request id).fail (.unlocking .threw)).heldKeys
          = (state.request id).heldKeys := rfl
      refine h.update id (held ▸ h.held id) (fun other _ => h.held other) claiming.holds ?_
        absent ?_ kept ?_
      · intro _ known
        cases known
      · intro _ _ known
        cases known
      · intro other _ _
        exact ⟨Request.Quiet.apart (Or.inl ⟨rfl, rfl⟩), Request.Quiet.apart (Or.inr ⟨rfl, rfl⟩)⟩
    cases call with
    | threw landed =>
      cases taken
      cases landed with
      | true => exact failed _ absentOthers keptOthers
      | false =>
        exact failed _ (fun other _ => h.absent other) (fun other _ => h.kept other)
    | answered =>
      cases taken
      let recorded : RequestStage := .unlocking (.recorded readAt writtenAt)
      have held : ((state.request id).goto recorded).heldKeys
          = (state.request id).heldKeys := rfl
      refine h.update id (held ▸ h.held id) (fun other _ => h.held other)
        ⟨claiming.goto _, ⟨readFirst, written⟩, unfailed⟩ ?_ absentOthers ?_ keptOthers ?_
      · intro _ known
        cases known
      · rintro _ _ known
        obtain ⟨rfl, rfl⟩ := Prod.mk.inj (Option.some.inj known)
        left
        exact ⟨writtenAt, Function.update_self _ _ _, le_refl _⟩
      · intro other different sameKey
        have two := h.apart other id different sameKey.symm
        refine ⟨⟨?_, ?_⟩, ⟨?_, ?_⟩⟩
        · intro _ _ lateRead _ known
          exact absurd known (notReading different sameKey lateRead)
        · rintro _ _ lateRead lateWrite known wrote
          obtain ⟨rfl, rfl⟩ := Prod.mk.inj (Option.some.inj known)
          exact Or.inr (two.reading lateRead lateWrite readAt wrote reading)
        · intro _ _ _ _ known
          cases known
        · rintro earlyRead earlyWrite _ _ wrote known
          obtain ⟨rfl, rfl⟩ := Prod.mk.inj (Option.some.inj known)
          exact Or.inl (two.reading earlyRead earlyWrite readAt wrote reading)
  · cases taken

theorem ReplayInv.released (h : ReplayInv settings state) (holds : (state.request id).holds = true)
    : (state.ledger.unlock id (state.request id).key).HoldsExactly id []
      ∧ ∀ other ≠ id, (state.ledger.unlock id (state.request id).key).HoldsExactly other
        (state.request other).heldKeys := by
  have mine : state.ledger.HoldsExactly id [(state.request id).key] := by
    have held := h.held id
    simpa only [Request.heldKeys, holds, if_true] using held
  refine ⟨mine.release (by simp), ?_⟩
  intro other different
  have owner : state.ledger.holder (state.request id).key = some id :=
    (mine _).mpr (List.mem_singleton_self _)
  exact (h.held other).release_other owner different

theorem ReplayInv.unlock (h : ReplayInv settings state)
    (taken : unlockStep settings state id call = some next)
    : ReplayInv settings next := by
  have before := h.sound id
  have holds {result : RecordEnd} (stage : (state.request id).stage = .unlocking result)
      : (state.request id).holds = true := by
    simp only [Request.Sound, stage] at before
    cases result with
    | recorded readAt writtenAt => exact before.1.holds
    | replay => exact before.1
    | threw => exact before
  have refused {result : RecordEnd} (stage : (state.request id).stage = .unlocking result)
      (request : Request) (held : request.holds = false)
      (sound : request.Sound settings state.clock) (key : request.key = (state.request id).key)
      (reading : request.stage.reading = none)
      (wrote : request.stage.wrote = none
        ∨ request.stage.wrote = (state.request id).stage.wrote
          ∧ (state.request id).stage.decided = none)
      : ReplayInv settings
          ({ state with ledger := state.ledger.unlock id (state.request id).key }.put id
            request) := by
    obtain ⟨mine, others⟩ := h.released (holds stage)
    refine h.locks id ?_ others sound key reading wrote
    have nothing : request.heldKeys = [] := by
      simp [held]
    rw [nothing]
    exact mine
  simp only [unlockStep] at taken
  split at taken
  · rename_i result stage
    cases taken
    cases result with
    | recorded readAt writtenAt =>
      simp only [Request.Sound, stage] at before
      obtain ⟨claiming, ⟨readFirst, written⟩, unfailed⟩ := before
      have moved := refused stage
        { state.request id with
          holds := false, stage := .letThrough readAt writtenAt state.clock }
        rfl
        ⟨⟨claiming.passed.early, claiming.passed.past⟩, claiming.fits,
          ⟨readFirst, written, le_refl _⟩, rfl, unfailed⟩
        rfl rfl (Or.inr ⟨by rw [stage]; rfl, by rw [stage]; rfl⟩)
      exact ⟨moved.held, moved.sound, moved.absent, moved.kept, moved.apart⟩
    | replay =>
      simp only [Request.Sound, stage] at before
      have moved := refused stage
        { state.request id with holds := false, stage := .refused .replay }
        rfl (by simp [before.2]) rfl rfl (Or.inl rfl)
      exact ⟨moved.held, moved.sound, moved.absent, moved.kept, moved.apart⟩
    | threw =>
      exact refused stage ({ state.request id with holds := false }.fail unavailable)
        rfl (Request.sound_unavailable _ _) rfl rfl (Or.inl rfl)
  · rename_i stage
    cases taken
    exact refused stage ({ state.request id with holds := false }.fail unavailable)
      rfl (Request.sound_unavailable _ _) rfl rfl (Or.inl rfl)
  · rename_i stage
    cases taken
    exact h.quiet id rfl (fun _ => rfl) ⟨rfl, rfl⟩
  · cases taken

variable {label : ReplayLabel}

theorem ReplayInv.step (h : ReplayInv settings state)
    (taken : replayStep settings state label = some next)
    : ReplayInv settings next := by
  cases label with
  | tick elapsed =>
    simp only [replayStep] at taken
    split at taken
    · rename_i forward
      cases taken
      have after : state.clock ≤ state.clock + elapsed := by linarith
      refine ⟨h.held, fun id => (h.sound id).later after, h.absent, ?_, h.apart⟩
      intro id readAt writtenAt wrote
      rcases h.kept id readAt writtenAt wrote with there | outlived
      · exact Or.inl there
      · exact Or.inr (outlived.trans after)
    · cases taken
  | receive id thread scope fields =>
    simp only [replayStep] at taken
    split at taken
    · rename_i idle
      cases taken
      exact h.receive idle thread scope fields
    · cases taken
  | recollect id valid => exact h.recollect taken
  | lock id gap call => exact h.lock taken
  | read id call => exact h.read taken
  | write id =>
    simp only [replayStep] at taken
    split at taken
    · rename_i stage
      cases taken
      exact h.write stage
    · cases taken
  | commit id call => exact h.commit taken
  | unlock id call => exact h.unlock taken
  | expire key =>
    simp only [replayStep] at taken
    split at taken
    · rename_i row there
      split at taken
      · rename_i old
        cases taken
        refine ⟨h.held, h.sound, ?_, ?_, h.apart⟩
        · intro id readAt reading
          by_cases same : (state.request id).key = key
          · simp [same]
          · simpa [same] using h.absent id readAt reading
        · intro id readAt writtenAt wrote
          by_cases same : (state.request id).key = key
          · right
            rcases h.kept id readAt writtenAt wrote with ⟨found, known, before⟩ | outlived
            · rw [same, there] at known
              cases known
              linarith
            · exact outlived
          · simpa [same] using h.kept id readAt writtenAt wrote
      · cases taken
    · cases taken
  | clear thread scope =>
    cases taken
    exact h.setCache thread scope .empty

theorem ReplayInv.of_reachable (reached : (replayGuards settings).Reachable state)
    : ReplayInv settings state := by
  refine reached.invariant ?_ (fun _ _ _ h taken => h.step taken)
  rintro start ⟨fresh, idle⟩
  refine ⟨?_, ?_, ?_, ?_, ?_⟩
  · intro id key
    rw [fresh, idle]
    simp [Ledger.fresh, idleRequest]
  · intro id
    rw [idle]
    exact ⟨rfl, rfl⟩
  · intro id readAt reading
    rw [idle] at reading
    cases reading
  · intro id readAt writtenAt wrote
    rw [idle] at wrote
    cases wrote
  · intro id other _ _
    rw [idle]
    exact Request.Quiet.apart (Or.inl ⟨rfl, rfl⟩)

-- Answers

def RequestStage.settled : RequestStage → Bool
  | .refused _ | .letThrough _ _ _ => true
  | _ => false

def ReplayLabel.subject : ReplayLabel → Option Nat
  | .receive id _ _ _ | .recollect id _ | .lock id _ _ | .read id _ | .write id | .commit id _
  | .unlock id _ => some id
  | .tick _ | .expire _ | .clear _ _ => none

theorem request_of_ne_subject (taken : replayStep settings state label = some next)
    (other : label.subject ≠ some id)
    : next.request id = state.request id := by
  cases label with
  | tick elapsed =>
    simp only [replayStep] at taken
    split at taken
    · cases taken
      rfl
    · cases taken
  | receive subject thread scope fields =>
    have different : id ≠ subject := fun same => other (congrArg some same.symm)
    simp only [replayStep] at taken
    split at taken
    · cases taken
      exact Function.update_of_ne different _ _
    · cases taken
  | recollect subject valid =>
    have different : id ≠ subject := fun same => other (congrArg some same.symm)
    simp only [replayStep, recollectStep] at taken
    split at taken
    · cases taken
      exact Function.update_of_ne different _ _
    · cases taken
  | lock subject gap call =>
    have different : id ≠ subject := fun same => other (congrArg some same.symm)
    simp only [replayStep, lockStep] at taken
    split at taken
    · cases taken
      exact Function.update_of_ne different _ _
    · split at taken
      · cases taken
        exact Function.update_of_ne different _ _
      split at taken
      · cases taken
        exact Function.update_of_ne different _ _
      · cases taken
        exact Function.update_of_ne different _ _
    · cases taken
  | read subject call =>
    have different : id ≠ subject := fun same => other (congrArg some same.symm)
    simp only [replayStep, readStep] at taken
    split at taken
    · cases taken
      exact Function.update_of_ne different _ _
    · cases taken
      exact Function.update_of_ne different _ _
    · cases taken
  | write subject =>
    have different : id ≠ subject := fun same => other (congrArg some same.symm)
    simp only [replayStep] at taken
    split at taken
    · cases taken
      exact Function.update_of_ne different _ _
    · cases taken
  | commit subject call =>
    have different : id ≠ subject := fun same => other (congrArg some same.symm)
    simp only [replayStep, commitStep] at taken
    split at taken
    · split at taken
      · cases taken
        exact Function.update_of_ne different _ _
      · rename_i landed
        cases taken
        cases landed <;> exact Function.update_of_ne different _ _
    · cases taken
  | unlock subject call =>
    have different : id ≠ subject := fun same => other (congrArg some same.symm)
    simp only [replayStep, unlockStep] at taken
    split at taken
    · rename_i result _
      cases taken
      cases result <;> exact Function.update_of_ne different _ _
    · cases taken
      exact Function.update_of_ne different _ _
    · cases taken
      exact Function.update_of_ne different _ _
    · cases taken
  | expire key =>
    simp only [replayStep] at taken
    split at taken
    · split at taken
      · cases taken
        rfl
      · cases taken
    · cases taken
  | clear thread scope =>
    cases taken
    rfl

theorem not_subject_of_settled (taken : replayStep settings state label = some next)
    (settled : (state.request id).stage.settled = true)
    : label.subject ≠ some id := by
  intro subject
  cases stage : (state.request id).stage with
  | refused reason =>
    cases label <;> cases subject <;>
      simp [replayStep, recollectStep, lockStep, readStep, commitStep, unlockStep, stage] at taken
  | letThrough readAt writtenAt decidedAt =>
    cases label <;> cases subject <;>
      simp [replayStep, recollectStep, lockStep, readStep, commitStep, unlockStep, stage] at taken
  | _ => simp [stage, RequestStage.settled] at settled

theorem settled_unchanged (taken : replayStep settings state label = some next)
    (settled : (state.request id).stage.settled = true)
    : next.request id = state.request id :=
  request_of_ne_subject taken (not_subject_of_settled taken settled)

-- Single use

def Request.FreshAt (settings : ReplaySettings) (request : Request) (time : Rat) : Prop :=
  timestampRefusal (settings.windowMs request.scope) time request.ts = none

def Request.LetThroughAt (request : Request) (decidedAt : Rat) : Prop :=
  ∃ readAt writtenAt, request.stage = .letThrough readAt writtenAt decidedAt

/-- `single` takes two requests with one nonce that were let through: one came first, and when
the other was let through, the first one's timestamp passed no longer. `single_ts` is the case
of one signed timestamp, sent again.
-/
structure SingleUse (settings : ReplaySettings) (state : ReplayState) : Prop where
  single
    : ∀ id other decidedAt otherAt, id ≠ other
      → (state.request id).scope = (state.request other).scope
      → (state.request id).nonce = (state.request other).nonce
      → (state.request id).LetThroughAt decidedAt
      → (state.request other).LetThroughAt otherAt
      → decidedAt ≤ otherAt ∧ ¬ (state.request id).FreshAt settings otherAt
        ∨ otherAt ≤ decidedAt ∧ ¬ (state.request other).FreshAt settings decidedAt
  single_ts
    : ∀ id other decidedAt otherAt, id ≠ other
      → (state.request id).scope = (state.request other).scope
      → (state.request id).nonce = (state.request other).nonce
      → (state.request id).ts = (state.request other).ts
      → (state.request id).LetThroughAt decidedAt
      → (state.request other).LetThroughAt otherAt
      → ¬ ((state.request id).FreshAt settings decidedAt
        ∧ (state.request other).FreshAt settings otherAt)
  failClosed
    : ∀ id, (state.request id).storeFailed = true
      → (state.request id).stage = .unlocking .threw
        ∨ (state.request id).stage = .refused .replayStoreUnavailable
  final
    : ∀ label next id, replayStep settings state label = some next
      → (state.request id).stage.settled = true → next.request id = state.request id

theorem window_lt_of_fits {scope : ReplayScope} (fits : settings.windowGap scope = false)
    : 2 * settings.windowMs scope < replayRetentionMs := by
  simp only [ReplaySettings.windowGap, Bool.or_eq_false_iff, decide_eq_false_iff_not,
    not_le] at fits
  exact fits.2

theorem ReplayInv.stale (h : ReplayInv settings state) {writtenAt decidedAt lateRead otherAt : Rat}
    (stage : (state.request id).stage = .letThrough readAt writtenAt decidedAt)
    (outlived : (state.request id).Outlived writtenAt lateRead) (later : lateRead ≤ otherAt)
    : decidedAt ≤ otherAt ∧ ¬ (state.request id).FreshAt settings otherAt := by
  have sound := h.sound id
  simp only [Request.Sound, stage] at sound
  obtain ⟨passed, fits, ⟨readFirst, -, -⟩, -⟩ := sound
  obtain ⟨kept, decided, known, before⟩ := outlived
  rw [stage] at known
  cases known
  refine ⟨before.trans later, ?_⟩
  have window := window_lt_of_fits fits
  have late : settings.windowMs (state.request id).scope < otherAt - (state.request id).ts := by
    linarith [passed.early, passed.past]
  simp [Request.FreshAt, timestampRefusal, late]

theorem ReplayInv.read_le (h : ReplayInv settings state) {writtenAt decidedAt : Rat}
    (stage : (state.request id).stage = .letThrough readAt writtenAt decidedAt)
    : readAt ≤ decidedAt := by
  have sound := h.sound id
  simp only [Request.Sound, stage] at sound
  exact sound.2.2.1.1.trans sound.2.2.1.2.1

/-- In every state any number of requests can reach, a signed request is used once. -/
theorem signed_request_single_use {state : ReplayState}
    (reached : (replayGuards settings).Reachable state)
    : SingleUse settings state := by
  have h := ReplayInv.of_reachable reached
  have single (id other : Nat) (decidedAt otherAt : Rat) (different : id ≠ other)
      (scope : (state.request id).scope = (state.request other).scope)
      (nonce : (state.request id).nonce = (state.request other).nonce)
      (first : (state.request id).LetThroughAt decidedAt)
      (second : (state.request other).LetThroughAt otherAt)
      : decidedAt ≤ otherAt ∧ ¬ (state.request id).FreshAt settings otherAt
        ∨ otherAt ≤ decidedAt ∧ ¬ (state.request other).FreshAt settings decidedAt := by
    obtain ⟨readAt, writtenAt, stage⟩ := first
    obtain ⟨lateRead, lateWrite, otherStage⟩ := second
    have key : (state.request id).key = (state.request other).key := by
      rw [Request.key, Request.key, scope, nonce]
    have apart := (h.apart id other different key).wrote readAt writtenAt lateRead lateWrite
      (by rw [stage]; rfl) (by rw [otherStage]; rfl)
    rcases apart with early | late
    · exact Or.inl (h.stale stage early (h.read_le otherStage))
    · exact Or.inr (h.stale otherStage late (h.read_le stage))
  refine ⟨single, ?_, ?_, ?_⟩
  · rintro id other decidedAt otherAt different scope nonce ts first second ⟨fresh, otherFresh⟩
    rcases single id other decidedAt otherAt different scope nonce first second with
      ⟨-, stale⟩ | ⟨-, stale⟩
    · apply stale
      rw [Request.FreshAt, scope, ts]
      exact otherFresh
    · apply stale
      rw [Request.FreshAt, ← scope, ← ts]
      exact fresh
  · intro id failed
    exact (h.sound id).refused_of_failed failed
  · intro label next id taken settled
    exact settled_unchanged taken settled

def defaultSettings : ReplaySettings where
  windowMs _ := defaultWindowMs
  cacheLimit _ := 100000

def freshInstance : ReplayState where
  clock := 0
  ledger := Ledger.fresh
  rows _ := none
  caches _ _ := ReplayCache.empty
  request _ := idleRequest

/-- A request let through, its copy on another thread while the first is still writing, a third
copy after the commit, and one whose claim met a failure.
-/
def replayRun : List ReplayLabel := [
  .tick 1000, .receive 0 0 .federation (some ("n", 1000)), .recollect 0 true,
  .lock 0 false .answered, .read 0 .answered, .write 0,
  .receive 1 1 .federation (some ("n", 1000)), .recollect 1 true, .lock 1 false .answered,
  .commit 0 .answered, .unlock 0 .answered,
  .receive 2 1 .federation (some ("n", 1000)), .recollect 2 true, .lock 2 false .answered,
  .read 2 .answered, .unlock 2 .answered,
  .receive 3 0 .federation (some ("m", 1000)), .recollect 3 true, .lock 3 true .answered]

theorem replayed_copies_refused
    : ∃ state, (replayGuards defaultSettings).run freshInstance replayRun = some state
        ∧ [0, 1, 2, 3].map (fun id => (state.request id).stage)
          = [.letThrough 1000 1000 1000, .refused .replay, .refused .replay,
            .refused .replayStoreUnavailable]
        ∧ SingleUse defaultSettings state := by
  have seen
      : ((replayGuards defaultSettings).run freshInstance replayRun).map
          (fun state => [0, 1, 2, 3].map (fun id => (state.request id).stage))
        = some [.letThrough 1000 1000 1000, .refused .replay, .refused .replay,
          .refused .replayStoreUnavailable] := by
    decide +kernel
  obtain ⟨state, run, stages⟩ := Option.map_eq_some_iff.mp seen
  have start : (replayGuards defaultSettings).initial freshInstance := ⟨rfl, fun _ => rfl⟩
  exact ⟨state, run, stages, signed_request_single_use (System.reachable_of_run start run)⟩

end Flair.Replay
