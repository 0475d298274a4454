import Flair.ConfigFiles.CriticalSection

/-! No update is lost: whoever is inside the section holds the lock, so the bytes in its hands
are the target's, and a call that reports a write has replaced exactly what its decision saw.
-/

namespace Flair.ConfigFiles

open ExclusiveEntry Transition

-- One call

def Stage.inside : Stage → Bool
  | .reobserving _ | .reading _ | .backingUp _ | .deciding _ _ | .staging _ | .creating _
  | .filling _ _ _ | .renaming _ _ _ | .publishing _ | .releasing _ => true
  | .observing | .locking _ _ | .exited _ | .crashed => false

def Stage.inHand : Stage → Option (Option Bytes)
  | .backingUp bytes | .deciding bytes _ => some bytes
  | .staging writing | .creating writing | .filling writing _ _ | .renaming writing _ _ =>
    some writing.seen
  | .observing | .locking _ _ | .reobserving _ | .reading _ | .publishing _ | .releasing _
  | .exited _ | .crashed => none

/-- The call is left with the status `written`. -/
def Exit.written : Exit → Bool
  | .returned result => result.status = .written
  | .threw _ | .again => false

abbrev Made := List (Replacement Nat (Option Bytes))

def Wrote (id : Nat) (decided : Option (Option Bytes × ConfigDecision)) (made : Made) : Prop :=
  ∃ seen bytes, decided = some (seen, .write bytes) ∧ made = [⟨id, seen, some bytes⟩]

def Decided (decided : Option (Option Bytes × ConfigDecision)) (made : Made)
    (writing : Writing)
    : Prop :=
  decided = some (writing.seen, .write writing.bytes) ∧ made = []

def Stage.Own (id : Nat) (decided : Option (Option Bytes × ConfigDecision)) (made : Made)
    : Stage → Prop
  | .observing | .locking _ _ | .reobserving _ | .reading _ | .backingUp _ | .deciding _ _ =>
    made = []
  | .staging writing | .creating writing => Decided decided made writing
  | .filling writing _ filled => Decided decided made writing ∧ filled <+: writing.bytes
  | .renaming writing _ filled => Decided decided made writing ∧ filled = writing.bytes
  | .publishing _ => Wrote id decided made
  | .releasing exit | .exited exit =>
    if exit.written then Wrote id decided made else made = []
  | .crashed => True

/-- A step of a call that leaves target and lock alone. -/
structure Kept (target : Target) (id : Nat) (made : Made) (before after : Call) : Prop where
  inside : after.stage.inside = before.stage.inside
  inHand : ∀ bytes, after.stage.inHand = some bytes
    → before.stage.inHand = some bytes ∨ bytes = target.bytes
  own : after.stage.Own id after.decided made
  leaked : after.leaked = before.leaked
  live : before.stage ≠ .crashed

variable {file : SharedFile} {options : CallOptions} {target : Target} {id : Nat} {made : Made}
  {call before : Call}

variable {stage : Stage}

theorem Stage.live_of_inside (inside : stage.inside = true) : stage ≠ .crashed := by
  rintro rfl
  cases inside

theorem kept_leave {exit : Exit} (unwritten : exit.written = false)
    (inside : before.stage.inside = true) (leaked : call.leaked = before.leaked)
    (nothing : made = [])
    : Kept target id made before (call.leave exit) where
  inside := inside.symm
  inHand bytes held := by cases held
  own := by
    change if exit.written then _ else _
    rw [unwritten]
    exact nothing
  leaked := leaked
  live := Stage.live_of_inside inside

theorem kept_refuse {status : ConfigSectionStatus} (unwritten : status ≠ .written)
    (inside : before.stage.inside = true) (leaked : call.leaked = before.leaked)
    (nothing : made = []) (message : String) (backupPath : Option String)
    : Kept target id made before (call.refuse file status message backupPath) :=
  kept_leave (decide_eq_false unwritten) inside leaked nothing

theorem kept_notReplaced (inside : call.stage.inside = true) (nothing : made = [])
    (writing : Writing) (reason : String)
    : Kept target id made call (call.notReplaced file options writing reason) :=
  kept_refuse (by simp) inside rfl nothing _ _

theorem kept_goOn {decided : Option (Option Bytes × ConfigDecision)}
    (inside : stage.inside = call.stage.inside)
    (inHand : ∀ bytes, stage.inHand = some bytes
      → call.stage.inHand = some bytes ∨ bytes = target.bytes)
    (own : stage.Own id decided made) (live : call.stage ≠ .crashed)
    : Kept target id made call { call with stage, decided } :=
  ⟨inside, inHand, own, rfl, live⟩

theorem kept_observe (standing : call.stage = .observing) (nothing : made = [])
    (failure : Option String)
    : Kept target id made call (call.observe file options target failure) := by
  unfold Call.observe
  split
  · exact kept_goOn (by rw [standing]; rfl) (fun _ held => by cases held) nothing
      (by simp [standing])
  · exact kept_goOn (by rw [standing]; rfl) (fun _ held => by cases held) nothing
      (by simp [standing])

variable {pre : ConfigObservation}

theorem kept_reobserve (inside : call.stage.inside = true) (nothing : made = [])
    (failure : Option String)
    : Kept target id made call (call.reobserve file options target pre failure) := by
  unfold Call.reobserve
  split
  · exact kept_refuse (by simp) inside rfl nothing _ _
  split
  · split
    · exact kept_leave rfl inside rfl nothing
    · exact kept_leave rfl inside rfl nothing
  · split
    · exact kept_refuse (by simp) inside rfl nothing _ _
    · exact kept_goOn inside.symm (fun _ held => by cases held) nothing
        (Stage.live_of_inside inside)

theorem kept_read {obs : ConfigObservation} (inside : call.stage.inside = true)
    (nothing : made = []) (failure : Option String)
    : Kept target id made call (call.read file target obs failure) := by
  unfold Call.read
  split
  · split
    · rename_i bytes present
      refine kept_goOn inside.symm ?_ nothing (Stage.live_of_inside inside)
      intro other held
      cases held
      exact .inr present.symm
    · exact kept_refuse (by simp) inside rfl nothing _ _
  · refine kept_goOn inside.symm ?_ nothing (Stage.live_of_inside inside)
    intro other held
    exact .inr (Option.some.inj held).symm

variable {bytes : Option Bytes}

theorem kept_backup (standing : call.stage = .backingUp bytes) (nothing : made = [])
    (outcome : Except String (Option String))
    : Kept target id made call (call.backup file bytes outcome) := by
  have inside := congrArg Stage.inside standing
  unfold Call.backup
  split
  · exact kept_goOn inside.symm (fun _ held => by rw [standing]; exact .inl held) nothing
      (Stage.live_of_inside inside)
  · exact kept_goOn inside.symm (fun _ held => by rw [standing]; exact .inl held) nothing
      (Stage.live_of_inside inside)
  · exact kept_refuse (by simp) inside rfl nothing _ _

theorem kept_decide {backupPath : Option String}
    (standing : call.stage = .deciding bytes backupPath) (nothing : made = [])
    (outcome : Except String ConfigDecision)
    : Kept target id made call (call.decide file bytes backupPath outcome) := by
  have inside := congrArg Stage.inside standing
  unfold Call.decide
  split
  · exact kept_leave rfl inside rfl nothing
  dsimp only
  split
  · refine kept_refuse ?_ inside ?_ nothing _ _
    · simp
    · rfl
  · refine kept_refuse ?_ inside ?_ nothing _ _
    · simp
    · rfl
  · refine kept_goOn inside.symm ?_ ⟨rfl, nothing⟩ (Stage.live_of_inside inside)
    intro other held
    rw [standing]
    exact .inl held

variable {writing : Writing}

theorem kept_decided (inside : stage.inside = true) (insideBefore : call.stage.inside = true)
    (hand : call.stage.inHand = some writing.seen)
    (inHand : ∀ bytes, stage.inHand = some bytes → bytes = writing.seen)
    (own : stage.Own id call.decided made)
    : Kept target id made call { call with stage } := by
  refine kept_goOn (inside.trans insideBefore.symm) ?_ own (Stage.live_of_inside insideBefore)
  intro bytes held
  rw [inHand bytes held]
  exact .inl hand

theorem kept_stageSides (standing : call.stage = .staging writing)
    (own : Decided call.decided made writing) (failure : Option String)
    : Kept target id made call (call.stageSides file writing failure) := by
  have inside := congrArg Stage.inside standing
  have hand := congrArg Stage.inHand standing
  cases failure with
  | some message => exact kept_refuse (by simp) inside rfl own.2 _ _
  | none =>
    exact kept_decided rfl inside hand (fun _ held => (Option.some.inj held).symm) own

theorem kept_create (standing : call.stage = .creating writing)
    (own : Decided call.decided made writing) (failure : Option String) (ino : Nat)
    : Kept target id made call (call.create file options writing failure ino) := by
  have inside := congrArg Stage.inside standing
  have hand := congrArg Stage.inHand standing
  cases failure with
  | some message => exact kept_notReplaced inside own.2 _ _
  | none =>
    exact kept_decided rfl inside hand (fun _ held => (Option.some.inj held).symm)
      ⟨own, List.nil_prefix⟩

variable {ino : Nat} {filled : Bytes}

theorem kept_fill (standing : call.stage = .filling writing ino filled)
    (own : Decided call.decided made writing) (so : filled <+: writing.bytes)
    (count : Except String Nat)
    : Kept target id made call (call.fill file options writing ino filled count) := by
  have inside := congrArg Stage.inside standing
  have hand := congrArg Stage.inHand standing
  cases count with
  | error message => exact kept_notReplaced inside own.2 _ _
  | ok count =>
    refine kept_decided rfl inside hand (fun _ held => (Option.some.inj held).symm) ⟨own, ?_⟩
    obtain ⟨rest, whole⟩ := so
    rw [← whole, List.drop_left]
    exact (List.prefix_append_right_inj filled).mpr (List.take_prefix count rest)

theorem kept_finish (standing : call.stage = .filling writing ino filled)
    (own : Decided call.decided made writing) (so : filled <+: writing.bytes)
    (whole : ¬ filled.length < writing.bytes.length) (failure : Option String)
    : Kept target id made call (call.finish file options writing ino filled failure) := by
  have inside := congrArg Stage.inside standing
  have hand := congrArg Stage.inHand standing
  cases failure with
  | some message => exact kept_notReplaced inside own.2 _ _
  | none =>
    exact kept_decided rfl inside hand (fun _ held => (Option.some.inj held).symm)
      ⟨own, so.eq_of_length_le (Nat.le_of_not_lt whole)⟩

/-- A step that leaves target and lock alone keeps the call's side of the lock, takes no bytes
into its hands but the target's, and makes no replacement, by cases on the stage.
-/
theorem kept_advance {event : Event} {next : Call} (own : call.stage.Own id call.decided made)
    (advanced : call.advance file options target event = some next)
    : Kept target id made call next := by
  unfold Call.advance at advanced
  split at advanced
  case h_1 standing =>
    cases advanced
    rw [standing] at own
    exact kept_observe standing own _
  case h_2 standing =>
    cases advanced
    rw [standing] at own
    exact kept_goOn (by rw [standing]; rfl) (fun _ held => by cases held) own (by simp [standing])
  case h_3 standing =>
    cases advanced
    rw [standing] at own
    exact kept_reobserve (by rw [standing]; rfl) own _
  case h_4 standing =>
    cases advanced
    rw [standing] at own
    exact kept_read (by rw [standing]; rfl) own _
  case h_5 standing =>
    cases advanced
    rw [standing] at own
    exact kept_backup standing own _
  case h_6 standing =>
    cases advanced
    rw [standing] at own
    exact kept_leave rfl (by rw [standing]; rfl) rfl own
  case h_7 standing =>
    cases advanced
    rw [standing] at own
    exact kept_decide standing own _
  case h_8 standing =>
    cases advanced
    rw [standing] at own
    exact kept_stageSides standing own _
  case h_9 standing =>
    cases advanced
    rw [standing] at own
    exact kept_create standing own _ _
  case h_10 standing =>
    cases advanced
    rw [standing] at own
    exact kept_fill standing own.1 own.2 _
  case h_11 standing =>
    rw [standing] at own
    split at advanced
    · cases advanced
    · rename_i whole
      cases advanced
      exact kept_finish standing own.1 own.2 whole _
  case h_12 standing =>
    cases advanced
    rw [standing] at own
    refine ⟨?_, ?_, own, rfl, ?_⟩
    · rw [standing]
      rfl
    · intro bytes held
      cases held
    · simp [standing]
  case h_13 => cases advanced

-- All calls

structure Sound (start : Option Bytes) (state : State) : Prop where
  guards : Guards state.world.lock fun id => (state.calls id).stage.inside = true
  current : ∀ id bytes, (state.calls id).stage.inHand = some bytes
    → state.world.target.bytes = bytes
  own : ∀ id, (state.calls id).stage.Own id (state.calls id).decided
    (madeBy id state.world.history)
  chained : Chained start state.world.history state.world.target.bytes
  left : ∀ id, state.world.lock = some id → (state.calls id).stage.inside = true
    ∨ (state.calls id).stage = .crashed ∨ (state.calls id).leaked = true

theorem Stage.inside_of_inHand (held : stage.inHand = some bytes)
    : stage.inside = true := by
  cases stage <;> first | rfl | cases held

variable {start : Option Bytes} {state : State} {next : Call}

theorem forall_update {property : Nat → Call → Prop} (own : property id next)
    (others : ∀ other, other ≠ id → property other (state.calls other))
    : ∀ other, property other (Function.update state.calls id next other) := by
  intro other
  by_cases same : other = id
  · subst same
    rw [Function.update_self]
    exact own
  · rw [Function.update_of_ne same]
    exact others other same

theorem Sound.keep (h : Sound start state)
    (kept : Kept state.world.target id (madeBy id state.world.history) (state.calls id) next)
    : Sound start { state with calls := Function.update state.calls id next } where
  guards := by
    intro other
    refine @forall_update id state next
      (fun other call => call.stage.inside = true → state.world.lock = some other) ?_ ?_ other
    · intro inside
      exact h.guards id (kept.inside.symm.trans inside)
    · intro other _
      exact h.guards other
  current := by
    refine @forall_update id state next
      (fun _ call => ∀ bytes, call.stage.inHand = some bytes → state.world.target.bytes = bytes)
      ?_ (fun other _ => h.current other)
    intro bytes held
    rcases kept.inHand bytes held with before | same
    · exact h.current id bytes before
    · exact same.symm
  own := @forall_update id state next
    (fun other call => call.stage.Own other call.decided (madeBy other state.world.history))
    kept.own (fun other _ => h.own other)
  chained := h.chained
  left := by
    refine @forall_update id state next
      (fun other call => state.world.lock = some other → call.stage.inside = true
        ∨ call.stage = .crashed ∨ call.leaked = true) ?_ (fun other _ => h.left other)
    intro holds
    rcases h.left id holds with inside | crashed | leaked
    · exact .inl (kept.inside.trans inside)
    · exact absurd crashed kept.live
    · exact .inr (.inr (kept.leaked.trans leaked))

theorem Sound.land (h : Sound start state)
    (standing : (state.calls id).stage = .renaming writing ino filled)
    : Sound start {
        world := { state.world with
          target := .regular ino filled
          history := state.world.history
            ++ [⟨id, state.world.target.bytes, some filled⟩] }
        calls := Function.update state.calls id
          { state.calls id with stage := .publishing writing } } where
  guards := by
    intro other
    refine @forall_update id state _
      (fun other call => call.stage.inside = true → state.world.lock = some other) ?_ ?_ other
    · intro _
      have inside : (state.calls id).stage.inside = true := by rw [standing]; rfl
      exact h.guards id inside
    · intro other _
      exact h.guards other
  current := by
    refine @forall_update id state _
      (fun _ call => ∀ bytes, call.stage.inHand = some bytes
        → (Target.regular ino filled).bytes = bytes) ?_ ?_
    · intro bytes held
      cases held
    intro other apart bytes held
    have both := h.guards.unique (Stage.inside_of_inHand held)
      (show (state.calls id).stage.inside = true by rw [standing]; rfl)
    exact absurd both apart
  own := by
    have mine := h.own id
    have seen := h.current id writing.seen (by rw [standing]; rfl)
    rw [standing] at mine
    obtain ⟨⟨decided, nothing⟩, rfl⟩ := mine
    refine @forall_update id state _
      (fun other call => call.stage.Own other call.decided (madeBy other _)) ?_ ?_
    · refine ⟨writing.seen, writing.bytes, decided, ?_⟩
      rw [madeBy_append_self, nothing, seen]
      rfl
    · intro other apart
      rw [madeBy_append_of_ne _ (Ne.symm apart)]
      exact h.own other
  chained := h.chained.append id (some filled)
  left := by
    refine @forall_update id state _
      (fun other call => state.world.lock = some other → call.stage.inside = true
        ∨ call.stage = .crashed ∨ call.leaked = true) ?_ (fun other _ => h.left other)
    intro _
    exact .inl rfl

variable {tried : Nat}

theorem Sound.enter (h : Sound start state) (free : state.world.lock = none)
    {pre' : ConfigObservation} (standing : (state.calls id).stage = .locking pre tried)
    : Sound start {
        world := { state.world with lock := some id }
        calls := Function.update state.calls id
          { state.calls id with stage := .reobserving pre' } } where
  guards := by
    have before := h.guards
    rw [free] at before
    refine before.create ?_
    intro other inside
    by_cases same : other = id
    · exact .inl same
    · dsimp only at inside
      rw [Function.update_of_ne same] at inside
      exact .inr inside
  current := @forall_update id state _
    (fun _ call => ∀ bytes, call.stage.inHand = some bytes → state.world.target.bytes = bytes)
    (fun bytes held => by cases held) (fun other _ => h.current other)
  own := by
    have mine := h.own id
    rw [standing] at mine
    exact @forall_update id state _
      (fun other call => call.stage.Own other call.decided (madeBy other state.world.history))
      mine (fun other _ => h.own other)
  chained := h.chained
  left := by
    refine @forall_update id state _
      (fun other call => some id = some other → call.stage.inside = true
        ∨ call.stage = .crashed ∨ call.leaked = true) (fun _ => .inl rfl) ?_
    intro other apart holds
    exact absurd (Option.some.inj holds).symm apart

theorem Sound.leave (h : Sound start state) (inside : (state.calls id).stage.inside = true)
    (outside : next.stage.inside = false) (unlinked : Bool)
    (own : next.stage.Own id next.decided (madeBy id state.world.history))
    (leaked : unlinked = false → next.stage = .crashed ∨ next.leaked = true)
    : Sound start {
        world := { state.world with lock := if unlinked then none else state.world.lock }
        calls := Function.update state.calls id next } where
  guards := by
    refine h.guards.leave inside ?_ _
    intro other holds
    by_cases same : other = id
    · subst same
      dsimp only at holds
      rw [Function.update_self, outside] at holds
      cases holds
    · dsimp only at holds
      rw [Function.update_of_ne same] at holds
      exact ⟨same, holds⟩
  current := by
    refine @forall_update id state _
      (fun _ call => ∀ bytes, call.stage.inHand = some bytes → state.world.target.bytes = bytes)
      ?_ (fun other _ => h.current other)
    intro bytes held
    rw [Stage.inside_of_inHand held] at outside
    cases outside
  own := @forall_update id state _
    (fun other call => call.stage.Own other call.decided (madeBy other state.world.history))
    own (fun other _ => h.own other)
  chained := h.chained
  left := by
    refine @forall_update id state _
      (fun other call => (if unlinked then none else state.world.lock) = some other
        → call.stage.inside = true ∨ call.stage = .crashed ∨ call.leaked = true) ?_ ?_
    · intro stands
      cases unlinked with
      | true => cases stands
      | false => exact .inr (leaked rfl)
    · intro other _ stands
      cases unlinked with
      | true => cases stands
      | false => exact h.left other stands

theorem Sound.outside (h : Sound start state)
    (standing : (state.calls id).stage = .locking pre tried) (outside : stage.inside = false)
    (own : ∀ made, made = [] → stage.Own id (state.calls id).decided made)
    : Sound start { state with
        calls := Function.update state.calls id { state.calls id with stage } } := by
  have mine := h.own id
  rw [standing] at mine
  refine h.keep (kept_goOn (by rw [standing, outside]; rfl) ?_ (own _ mine) (by simp [standing]))
  intro bytes held
  rw [Stage.inside_of_inHand held] at outside
  cases outside

theorem Sound.tryLock (h : Sound start state)
    (standing : (state.calls id).stage = .locking pre tried) {failed : Bool} {world : World}
    (tries : tryLock file options state.world id (state.calls id) pre tried failed
      = some (world, next))
    : Sound start { world, calls := Function.update state.calls id next } := by
  unfold ConfigFiles.tryLock at tries
  split at tries
  · split at tries
    · obtain ⟨rfl, rfl⟩ := Prod.mk.inj (Option.some.inj tries)
      exact h.outside standing rfl (fun _ nothing => nothing)
    split at tries
    · rename_i free
      obtain ⟨rfl, rfl⟩ := Prod.mk.inj (Option.some.inj tries)
      exact h.enter free standing
    · obtain ⟨rfl, rfl⟩ := Prod.mk.inj (Option.some.inj tries)
      exact h.outside standing rfl (fun _ nothing => nothing)
  · cases tries

theorem Sound.rename (h : Sound start state)
    (standing : (state.calls id).stage = .renaming writing ino filled) (outcome : RenameOutcome)
    : Sound start {
        world := (rename file options state.world id (state.calls id) writing ino filled outcome).1
        calls := Function.update state.calls id
          (rename file options state.world id (state.calls id) writing ino filled outcome).2 } := by
  have mine := h.own id
  have inside : (state.calls id).stage.inside = true := by rw [standing]; rfl
  rw [standing] at mine
  cases outcome with
  | landed => exact h.land standing
  | hookThrew message => exact h.keep (kept_leave rfl inside rfl mine.1.2)
  | checkFailed message => exact h.keep (kept_notReplaced inside mine.1.2 _ _)
  | failed message => exact h.keep (kept_notReplaced inside mine.1.2 _ _)

theorem Sound.release (h : Sound start state) {exit : Exit}
    (standing : (state.calls id).stage = .releasing exit) (unlinked : Bool)
    : Sound start {
        world := (release state.world (state.calls id) exit unlinked).1
        calls := Function.update state.calls id
          (release state.world (state.calls id) exit unlinked).2 } := by
  have mine := h.own id
  have inside : (state.calls id).stage.inside = true := by rw [standing]; rfl
  rw [standing] at mine
  have leaked : unlinked = false → ((state.calls id).leaked || !unlinked) = true := by
    rintro rfl
    exact Bool.or_true _
  cases exit with
  | again => exact h.leave inside rfl unlinked mine (fun kept => .inr (leaked kept))
  | returned result => exact h.leave inside rfl unlinked mine (fun kept => .inr (leaked kept))
  | threw message => exact h.leave inside rfl unlinked mine (fun kept => .inr (leaked kept))

theorem Sound.perform (h : Sound start state) {event : Event} {world : World}
    (performed : perform file options state.world id (state.calls id) event = some (world, next))
    : Sound start { world, calls := Function.update state.calls id next } := by
  unfold ConfigFiles.perform at performed
  split at performed
  case h_1 standing => exact h.tryLock standing performed
  case h_2 standing =>
    unfold giveUp at performed
    split at performed
    · cases performed
    · obtain ⟨rfl, rfl⟩ := Prod.mk.inj (Option.some.inj performed)
      exact h.outside standing rfl (fun _ nothing => nothing)
  case h_3 standing =>
    obtain ⟨rfl, rfl⟩ := Prod.mk.inj (Option.some.inj performed)
    exact h.rename standing _
  case h_4 standing =>
    obtain ⟨rfl, rfl⟩ := Prod.mk.inj (Option.some.inj performed)
    exact h.release standing _
  case h_5 =>
    obtain ⟨after, advanced, same⟩ := Option.map_eq_some_iff.mp performed
    obtain ⟨rfl, rfl⟩ := Prod.mk.inj same
    exact h.keep (kept_advance (h.own id) advanced)

theorem Sound.crash (h : Sound start state)
    : Sound start { state with
        calls := Function.update state.calls id { state.calls id with stage := .crashed } } where
  guards := by
    refine h.guards.mono ?_
    refine @forall_update id state _
      (fun other call => call.stage.inside = true → (state.calls other).stage.inside = true)
      (fun inside => by cases inside) (fun other _ inside => inside)
  current := @forall_update id state _
    (fun _ call => ∀ bytes, call.stage.inHand = some bytes → state.world.target.bytes = bytes)
    (fun bytes held => by cases held) (fun other _ => h.current other)
  own := @forall_update id state _
    (fun other call => call.stage.Own other call.decided (madeBy other state.world.history))
    trivial (fun other _ => h.own other)
  chained := h.chained
  left := @forall_update id state _
    (fun other call => state.world.lock = some other → call.stage.inside = true
      ∨ call.stage = .crashed ∨ call.leaked = true)
    (fun _ => .inr (.inl rfl)) (fun other _ => h.left other)

theorem Stage.inside_of_over (ended : stage.over = true) : stage.inside = false := by
  cases stage <;> first | rfl | cases ended

theorem Sound.clear (h : Sound start state) {holder : Nat} (held : state.world.lock = some holder)
    (ended : (state.calls holder).stage.over = true)
    : Sound start { state with world := { state.world with lock := none } } where
  guards := by
    have before := h.guards
    rw [held] at before
    refine before.clear ?_ _
    rw [Stage.inside_of_over ended]
    exact Bool.false_ne_true
  current := h.current
  own := h.own
  chained := h.chained
  left id stands := by cases stands

theorem sound_step {file : SharedFile} {options : Nat → CallOptions} {before after : State}
    {label : Label} (h : Sound start before)
    (taken : (sections file options).step before label = some after)
    : Sound start after := by
  change step file options before label = some after at taken
  cases label with
  | act id event =>
    obtain ⟨⟨world, next⟩, performed, rfl⟩ := Option.map_eq_some_iff.mp taken
    exact h.perform performed
  | crash id =>
    simp only [step] at taken
    split at taken
    · cases taken
    · cases taken
      exact h.crash
  | clear =>
    simp only [step] at taken
    split at taken
    · rename_i holder held
      split at taken
      · rename_i ended
        cases taken
        exact h.clear held ended
      · cases taken
    · cases taken

-- Every run

section Runs

variable {file : SharedFile} {options : Nat → CallOptions} {first state : State}

theorem sound_initial (initial : (sections file options).initial first)
    : Sound first.world.target.bytes first := by
  obtain ⟨unbegun, leftover, nothing⟩ := initial
  have outside : ∀ id, (first.calls id).stage.inside = false := by
    intro id
    rcases unbegun id with fresh | crashed
    · rw [fresh]
      rfl
    · rw [crashed]
      rfl
  refine ⟨?_, ?_, ?_, ?_, ?_⟩
  · intro id inside
    rw [outside id] at inside
    cases inside
  · intro id bytes held
    have inside := Stage.inside_of_inHand held
    rw [outside id] at inside
    cases inside
  · intro id
    rw [nothing]
    rcases unbegun id with fresh | crashed
    · rw [fresh]
      rfl
    · rw [crashed]
      trivial
  · rw [nothing]
    rfl
  · exact fun id stands => .inr (.inl (leftover id stands))

theorem sound_of_reaches (initial : (sections file options).initial first)
    (run : (sections file options).Reaches first state)
    : Sound first.world.target.bytes state :=
  run.preserves (fun _ _ _ h _ taken => sound_step h taken) (sound_initial initial)

/-- Each replacement of the target replaced what the one before it left. A call that reports a
write made one replacement, of the bytes its decision saw by the bytes it decided, and a call
left in any other way made none. Its lock entry is gone unless the unlink of it failed, and
stands as long as it is inside.
-/
theorem no_update_lost (initial : (sections file options).initial first)
    (run : (sections file options).Reaches first state)
    : Chained first.world.target.bytes state.world.history state.world.target.bytes
      ∧ (∀ id exit, (state.calls id).stage = .exited exit
        → (if exit.written then
            Wrote id (state.calls id).decided (madeBy id state.world.history)
          else madeBy id state.world.history = [])
          ∧ (state.world.lock = some id → (state.calls id).leaked = true))
      ∧ ∀ id, (state.calls id).stage.inside = true → state.world.lock = some id := by
  have sound := sound_of_reaches initial run
  refine ⟨sound.chained, ?_, sound.guards⟩
  intro id exit exited
  refine ⟨?_, ?_⟩
  · have own := sound.own id
    rw [exited] at own
    exact own
  · intro stands
    rcases sound.left id stands with inside | crashed | leaked
    · rw [exited] at inside
      cases inside
    · rw [exited] at crashed
      cases crashed
    · exact leaked

end Runs

-- Two runs

def settingsFile : SharedFile where
  targetPath := "/home/agent/.claude/settings.json"
  dev := 1
  lockPath := "/home/agent/.claude/settings.json.lock"

def directCall : CallOptions where
  name := ⟨"/home/agent/.claude/settings.json", ⟨"/home/agent/.claude", 1, 7⟩, none⟩
  maxAttempts := 3
  lockAttempts := 40
  stages := false

def settledState : State where
  world := { target := .regular 100 [1], lock := none, history := [] }
  calls _ := .fresh

def writingSteps (id ino : Nat) (byte : UInt8) (unlinked : Bool) : List Label :=
  [.act id (.tryLock false), .act id (.observe none), .act id (.read none),
    .act id (.backup (.ok none)), .act id (.decide (.ok (.write [byte]))),
    .act id (.stage none), .act id (.create none ino), .act id (.fill (.ok 1)),
    .act id (.finish none), .act id (.rename .landed), .act id (.publish none),
    .act id (.release unlinked)]

/-- Two calls observe the file. The first writes it, so the second needs a fresh attempt. -/
def contendedSteps : List Label :=
  [.act 0 (.observe none), .act 1 (.observe none)] ++ writingSteps 0 101 2 true
    ++ [.act 1 (.tryLock false), .act 1 (.observe none), .act 1 (.release true),
      .act 1 (.observe none)]
    ++ writingSteps 1 102 3 true

def contendedState : State :=
  ((sections settingsFile fun _ => directCall).run settledState contendedSteps).getD settledState

theorem settledState_initial : (sections settingsFile fun _ => directCall).initial settledState :=
  ⟨fun _ => .inl rfl, fun _ stands => (by cases stands), rfl⟩

theorem contendedState_reached
    : (sections settingsFile fun _ => directCall).Reaches settledState contendedState :=
  System.reaches_of_run (show System.run _ settledState contendedSteps = _ from rfl)

/-- Witness: both calls write, the second over the bytes the first left. -/
theorem contended_calls_chain
    : contendedState.world.history = [⟨0, some [1], some [2]⟩, ⟨1, some [2], some [3]⟩]
      ∧ Chained settledState.world.target.bytes contendedState.world.history
        contendedState.world.target.bytes :=
  ⟨rfl, (no_update_lost settledState_initial contendedState_reached).1⟩

/-- A call that writes while the unlink of its lock entry fails. -/
def leakingState : State :=
  ((sections settingsFile fun _ => directCall).run settledState
    (.act 0 (.observe none) :: writingSteps 0 101 2 false)).getD settledState

/-- A call may exit without a crash and leave its lock entry behind. -/
theorem lock_entry_left_behind
    : ¬ ∀ state : State,
        (sections settingsFile fun _ => directCall).Reaches settledState state
        → ∀ id exit, (state.calls id).stage = .exited exit → state.world.lock ≠ some id := by
  intro claimed
  refine claimed leakingState (System.reaches_of_run (show System.run _ settledState
    (.act 0 (.observe none) :: writingSteps 0 101 2 false) = _ from rfl)) 0 _ rfl rfl

end Flair.ConfigFiles
