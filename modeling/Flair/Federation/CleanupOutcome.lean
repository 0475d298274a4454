import Flair.Federation.CleanupSafety

/-! After a cleanup tick without a failed operation the listed users whose token was missing,
consumed or expired throughout are gone. With the safety of its steps, when a tick beside
mints and pairings does what it should, and the two ways in which it does not.
-/

namespace Flair.Federation

open Dynamic Transition

-- What the tick has on a listed user

def UnneededDuringTick (username : UserName) (state : CleanupState) : Prop :=
  state.tick ≠ .idle → ¬ NeedsUser state.tokens state.now username

/-- What the tick has on a listed user whose token no step finds live: it is queued, or
dropped and then gone unless an operation failed.
-/
def Accounted (username : UserName) (tokens : TokenTable) (users : List UserName)
    : TickStage → Prop
  | .listed listed _ =>
    username ∈ listed.getD [] → BOOTSTRAP_USER_PREFIX.isPrefixOf username = true
  | .scanning listed now _ =>
    username ∈ listed.getD [] → BOOTSTRAP_USER_PREFIX.isPrefixOf username = true
      ∧ ∀ id token, tokens.get id = some token → bootstrapUser id = username
        → isCandidate now (id, token) = true
  | .candidate tick _ _ | .housekeeping tick _ _ =>
    username ∈ tick.users.getD [] → username ∈ tick.toDrop
      ∧ (username ∈ tick.droppedUsers → tick.failed = true ∨ username ∉ users)
  | .sweeping tick first left =>
    username ∈ tick.users.getD [] → (username ∈ first :: left ∨ username ∈ tick.droppedUsers)
      ∧ (username ∈ tick.droppedUsers → tick.failed = true ∨ username ∉ users)
  | .finished listed failed => username ∈ listed.getD [] → failed = true ∨ username ∉ users
  | _ => True

section

variable {username : UserName} {tokens : TokenTable} {users : List UserName}

variable {tick : TickData}

theorem accounted_sweepOn {left : List UserName}
    (accounted : username ∈ tick.users.getD []
      → (username ∈ left ∨ username ∈ tick.droppedUsers)
        ∧ (username ∈ tick.droppedUsers → tick.failed = true ∨ username ∉ users))
    : Accounted username tokens users (sweepOn tick left) := by
  cases left with
  | nil =>
    intro listed
    obtain ⟨queued, gone⟩ := accounted listed
    exact gone (queued.resolve_left List.not_mem_nil)
  | cons first left => exact accounted

theorem accounted_candidatesOn {left : List TokenEntry}
    (accounted : username ∈ tick.users.getD [] → username ∈ tick.toDrop
      ∧ (username ∈ tick.droppedUsers → tick.failed = true ∨ username ∉ users))
    : Accounted username tokens users (candidatesOn tick left) := by
  cases left with
  | nil =>
    refine accounted_sweepOn ?_
    intro listed
    exact (accounted listed).imp_left .inl
  | cons token left => exact accounted

theorem gone_of_drop {dropped : UserName} {fails : Bool} {after : List UserName}
    (fewer : ∀ other ∈ after, other ∈ users)
    (gone : dropped ∉ tick.droppedUsers → fails = false → dropped ∉ after)
    (before : username ∈ tick.droppedUsers → tick.failed = true ∨ username ∉ users)
    : username ∈ (tick.drop dropped fails).droppedUsers
      → (tick.drop dropped fails).failed = true ∨ username ∉ after := by
  have kept : username ∈ tick.droppedUsers → tick.failed = true ∨ username ∉ after :=
    fun member => (before member).imp_right fun absent present => absent (fewer _ present)
  unfold TickData.drop
  split
  · exact kept
  case isFalse fresh =>
    intro member
    rcases List.mem_cons.mp member with rfl | member
    · cases fails with
      | true => exact .inl (Bool.or_true _)
      | false => exact .inr (gone fresh rfl)
    · exact (kept member).imp_left fun failed => by simp [failed]

theorem accounted_afterDrop {stage : TickStage} {fails : Bool} {after : List UserName}
    (fewer : ∀ other ∈ after, other ∈ users)
    (gone : ∀ dropped, pendingDrop stage = some dropped → fails = false → dropped ∉ after)
    (accounted : Accounted username tokens users stage)
    (dropping : scanClock stage = none)
    : Accounted username tokens after (afterDrop fails stage) := by
  cases stage with
  | candidate tick token left =>
    have next : username ∈ (tick.drop (bootstrapUser token.1) fails).users.getD []
        → username ∈ (tick.drop (bootstrapUser token.1) fails).toDrop
          ∧ (username ∈ (tick.drop (bootstrapUser token.1) fails).droppedUsers
            → (tick.drop (bootstrapUser token.1) fails).failed = true ∨ username ∉ after) := by
      intro listed
      obtain ⟨queued, before⟩ := accounted (by simpa using listed)
      refine ⟨by simpa using queued, gone_of_drop fewer ?_ before⟩
      intro fresh
      exact gone _ (if_neg fresh)
    simp only [afterDrop]
    split
    · exact next
    · exact accounted_candidatesOn next
  | sweeping tick first left =>
    refine accounted_sweepOn ?_
    intro listed
    obtain ⟨queued, before⟩ := accounted (by simpa using listed)
    refine ⟨?_, gone_of_drop fewer (fun fresh => gone _ (if_neg fresh)) before⟩
    have recorded : ∀ other, other = first ∨ other ∈ tick.droppedUsers
        → other ∈ (tick.drop first fails).droppedUsers := by
      intro other
      unfold TickData.drop
      split
      case isTrue held =>
        rintro (rfl | member)
        · exact held
        · exact member
      · exact fun either => List.mem_cons.mpr either
    rcases queued with waiting | done
    · rcases List.mem_cons.mp waiting with same | waiting
      · exact .inr (recorded _ (.inl same))
      · exact .inl waiting
    · exact .inr (recorded _ (.inr done))
  | listed listed failed => exact accounted
  | scanning listed now failed => contradiction
  | housekeeping tick token left =>
    intro listed
    obtain ⟨queued, before⟩ := accounted listed
    exact ⟨queued, fun done =>
      (before done).imp_right fun absent present => absent (fewer _ present)⟩
  | finished listed failed =>
    intro member
    exact (accounted member).imp_right fun absent present => absent (fewer _ present)
  | idle | listing => trivial

end

theorem isCandidate_of_not_live {token : Record} {now : Int} {id : String}
    (dead : tokenLive token now ≠ true)
    : isCandidate now (id, token) = true := by
  cases consumed : tokenConsumed token with
  | true => simp [isCandidate, consumed]
  | false => simpa [tokenLive, isCandidate, consumed] using dead

variable {username : UserName} {state : CleanupState}

theorem tickStep_accounts {next : CleanupState} {label : CleanupLabel}
    (distinct : InsertionMap.Distinct state.tokens) (unneeded : UnneededDuringTick username state)
    (accounted : Accounted username state.tokens state.users state.tick)
    (taken : tickStep state label = some next)
    : Accounted username next.tokens next.users next.tick := by
  cases label with
  | begin rows =>
    simp only [tickStep] at taken
    split at taken
    · split at taken <;> cases taken
      · trivial
      · exact fun member => absurd member List.not_mem_nil
    · contradiction
  | listUsers result =>
    simp only [tickStep] at taken
    split at taken
    · cases taken
      cases result with
      | none => exact fun member => absurd member List.not_mem_nil
      | some listed => exact fun member => (List.mem_filter.mp member).2
    · contradiction
  | readClock =>
    simp only [tickStep] at taken
    split at taken
    case h_1 listed failed stage =>
      cases taken
      intro member
      rw [stage] at accounted
      refine ⟨accounted member, ?_⟩
      intro id token held named
      refine isCandidate_of_not_live fun live => ?_
      exact unneeded (by simp [stage]) ⟨id, token, held, live, named⟩
    · contradiction
  | scan readable =>
    simp only [tickStep] at taken
    split at taken
    case h_1 listed now failed stage =>
      rw [stage] at accounted
      split at taken <;> cases taken
      · refine accounted_candidatesOn fun member => ⟨?_, fun done => absurd done List.not_mem_nil⟩
        obtain ⟨prefixed, candidates⟩ := accounted member
        obtain ⟨rest, rfl⟩ := List.isPrefixOf_iff_prefix.mp prefixed
        refine List.mem_filter.mpr ⟨member, ?_⟩
        rw [Bool.and_eq_true, Bool.not_eq_true', List.drop_left, ← Bool.not_eq_true,
          List.contains_iff_mem]
        refine ⟨prefixed, fun live => ?_⟩
        obtain ⟨⟨id, token⟩, listed, same⟩ := List.mem_map.mp live
        obtain ⟨stored, alive⟩ := List.mem_filter.mp listed
        have candidate := candidates id token (distinct.get_of_mem stored)
          (by rw [bootstrapUser_eq, ← same])
        simp [candidate] at alive
      · exact fun _ => .inl rfl
    · contradiction
  | drop applied fails =>
    have dropping : scanClock state.tick = none := by
      simp only [tickStep] at taken
      split at taken
      all_goals first | contradiction | simp [scanClock, *]
    simp only [tickStep] at taken
    split at taken
    case h_3 => contradiction
    all_goals
      split at taken
      case h_1 done =>
        cases taken
        exact accounted_afterDrop (fun _ member => member) (by simp [done]) accounted dropping
      case h_2 dropped pending =>
        cases taken
        simp only [drop_tokens]
        unfold CleanupState.drop
        refine accounted_afterDrop ?_ ?_ accounted dropping
        · intro other member
          split at member
          · exact List.mem_of_mem_filter member
          · exact member
        · intro other same applied
          obtain rfl := Option.some.inj (pending.symm.trans same)
          simp [applied]
  | delete applied confirmed =>
    simp only [tickStep] at taken
    split at taken
    · contradiction
    case h_2 id pending =>
      cases taken
      have users : (state.delete id (applied || confirmed)).users = state.users := by
        unfold CleanupState.delete
        split <;> rfl
      simp only [users]
      revert accounted pending
      cases state.tick with
      | housekeeping tick token left =>
        rintro accounted -
        refine accounted_candidatesOn fun member => ?_
        obtain ⟨queued, gone⟩ := accounted member
        exact ⟨queued, fun done => (gone done).imp_left fun failed => by simp [failed]⟩
      | _ => simp [pendingDelete]
  | _ => contradiction

theorem Beside.accounts {before after : CleanupState} (beside : Beside before after)
    (unneeded : UnneededDuringTick username before) (later : UnneededDuringTick username after)
    (accounted : Accounted username before.tokens before.users before.tick)
    : Accounted username after.tokens after.users after.tick := by
  have fewer : before.tick ≠ .idle → username ∈ listedUsers before.tick
      → username ∈ after.users → username ∈ before.users := by
    intro begun listed present
    rcases beside.users username present with held | needed
    · exact held
    · exact absurd (needed listed) (unneeded begun)
  rw [UnneededDuringTick, beside.tick] at later
  rw [beside.tick]
  cases stage : before.tick with
  | idle | listing | listed listed failed =>
    rw [stage] at accounted
    exact accounted
  | scanning listed now failed =>
    rw [stage] at accounted later
    intro member
    obtain ⟨prefixed, candidates⟩ := accounted member
    refine ⟨prefixed, ?_⟩
    rintro id token held rfl
    rcases beside.fresh id token held with kept | consumed | fresh
    · exact candidates id token kept rfl
    · simp [isCandidate, consumed]
    have unexpired := fresh (by rw [stage]; exact member)
    by_contra alive
    refine later (by simp) ⟨id, token, held, ?_, rfl⟩
    simp only [isCandidate, Bool.or_eq_true, not_or, Bool.not_eq_true] at alive
    simp [tokenLive, alive.1, unexpired]
  | candidate tick token left | housekeeping tick token left | sweeping tick first left =>
    rw [stage] at accounted fewer
    intro listed
    obtain ⟨queued, gone⟩ := accounted listed
    exact ⟨queued, fun done =>
      (gone done).imp_right fun absent present => absent (fewer (by simp) listed present)⟩
  | finished listed failed =>
    rw [stage] at accounted fewer
    intro member
    exact (accounted member).imp_right fun absent present =>
      absent (fewer (by simp) member present)

/-- Along a run whose steps meet the condition and never find a live token naming the user,
the tick accounts for the user.
-/
theorem cleanup_accounts
    (run : cleanup.ReachableUnder
      (fun before label => KeepsApart before label ∧ UnneededDuringTick username before) state)
    (unneeded : UnneededDuringTick username state)
    : Accounted username state.tokens state.users state.tick := by
  have initially : ∀ state, cleanup.initial state → CleanupInvariant state
      ∧ (UnneededDuringTick username state
        → Accounted username state.tokens state.users state.tick) := by
    intro state initial
    refine ⟨cleanup_invariant ⟨state, initial, .refl⟩, fun _ => ?_⟩
    rw [initial.2.1]
    trivial
  have both : CleanupInvariant state ∧ (UnneededDuringTick username state
      → Accounted username state.tokens state.users state.tick) := by
    refine run.invariant initially ?_
    · rintro before label after ⟨holds, accounted⟩ ⟨apart, unneeded⟩ taken
      refine ⟨cleanupStep_keeps holds apart taken, fun later => ?_⟩
      rcases Option.or_eq_some_iff.mp taken with tick | ⟨-, other⟩
      · exact tickStep_accounts holds.distinct unneeded (accounted unneeded) tick
      · exact (otherStep_beside holds.pairs apart other).accounts unneeded later
          (accounted unneeded)
  exact both.2 unneeded

-- When a tick does no harm

/-- In every run whose steps meet the condition, no step of the tick takes away a bootstrap
user that a live token needs, a user outside the prefix, or a token row that is consumed or
unexpired; and after a tick with no failed operation every listed user whose token was
missing, consumed or expired throughout is gone.
-/
theorem cleanup_spares_live_pairings (state : CleanupState)
    : (∀ label after, cleanup.ReachableUnder KeepsApart state → KeepsApart state label
        → tickStep state label = some after → Harmless state after)
      ∧ ∀ username,
        cleanup.ReachableUnder
          (fun before label => KeepsApart before label ∧ UnneededDuringTick username before) state
        → UnneededDuringTick username state
        → ∀ listed, state.tick = .finished (some listed) false → username ∈ listed
          → username ∉ state.users := by
  refine ⟨?_, ?_⟩
  · intro label after run _ taken
    exact tickStep_harmless (cleanup_invariant run) taken
  intro username run unneeded listed stage member
  have accounted := cleanup_accounts run unneeded
  rw [stage] at accounted
  simpa using accounted member

def hubRows : Option (List InstanceRow) :=
  some [{ id := some (.str "hub-1"), role := some (.str "hub") }]

def expiringHub : CleanupState where
  now := 1767225600000
  tokens := [("token-1", Record.ofFields [("expiresAt", .str "2026-01-01T00:00:01.000Z")])]
  users := [bootstrapUser "token-1"]
  tick := .idle
  mint _ := .idle
  pair _ := .idle

def runsAlone (state : CleanupState) : CleanupLabel → Bool
  | .begin _ | .listUsers _ | .readClock | .scan _ | .drop _ _ | .delete _ _ =>
    state.tokens.all fun entry => !tokenLive entry.2 state.now
  | _ => false

theorem runsAlone_apart {label : CleanupLabel} (username : UserName)
    (alone : runsAlone state label = true)
    : KeepsApart state label ∧ UnneededDuringTick username state := by
  have dead : (state.tokens.all fun entry => !tokenLive entry.2 state.now) = true
      → ∀ id token, state.tokens.get id = some token → tokenLive token state.now ≠ true := by
    intro all id token held live
    have entry := List.all_eq_true.mp all (id, token) (InsertionMap.mem_of_get held)
    simp [live] at entry
  cases label with
  | scan readable =>
    exact ⟨fun id token other row held live => absurd live (dead alone id token held),
      fun _ ⟨id, token, held, live, _⟩ => dead alone id token held live⟩
  | begin _ | listUsers _ | readClock | drop _ _ | delete _ _ =>
    exact ⟨trivial, fun _ ⟨id, token, held, live, _⟩ => dead alone id token held live⟩
  | _ => contradiction

def expiredHub : CleanupState := { expiringHub with now := 1767225660000 }

def wholeTick : List CleanupLabel := [
  .begin hubRows, .listUsers (some [bootstrapUser "token-1"]), .readClock, .scan true,
  .drop true false, .delete true true, .drop true false]

def tookUser : TickStage → Bool
  | .finished (some [username]) false => username == bootstrapUser "token-1"
  | _ => false

/-- Witness: a tick over one expired token leaves its user gone. -/
theorem cleanup_spares_live_pairings_expired
    : ∃ state, cleanup.runUnder runsAlone expiredHub wholeTick = some state
        ∧ bootstrapUser "token-1" ∈ expiredHub.users
        ∧ bootstrapUser "token-1" ∉ state.users := by
  have runs : (cleanup.runUnder runsAlone expiredHub wholeTick).any (fun state =>
      tookUser state.tick && state.tokens.isEmpty) = true := by
    decide
  obtain ⟨state, run, checks⟩ := (Option.any_eq_true _ _).mp runs
  rw [Bool.and_eq_true, List.isEmpty_iff] at checks
  obtain ⟨finished, empty⟩ := checks
  have initial : cleanup.initial expiredHub :=
    ⟨by simp [InsertionMap.Distinct, expiredHub, expiringHub], rfl, fun _ => rfl, fun _ => rfl⟩
  have reached : cleanup.ReachableUnder (fun before label =>
      KeepsApart before label ∧ UnneededDuringTick (bootstrapUser "token-1") before) state :=
    ⟨expiredHub, initial, (System.reachesUnder_of_runUnder run).mono
      fun before label alone => runsAlone_apart _ alone⟩
  have unneeded : UnneededDuringTick (bootstrapUser "token-1") state := by
    rintro - ⟨id, token, held, -⟩
    simp [empty] at held
  unfold tookUser at finished
  split at finished
  case h_1 username stage =>
    have same : username = bootstrapUser "token-1" := by simpa using finished
    refine ⟨state, run, List.mem_cons_self, ?_⟩
    exact (cleanup_spares_live_pairings state).2 _ reached unneeded [username] stage
      (by simp [same])
  case h_2 => contradiction

/-- A hub whose table holds a consumed token and a live one with the same first eight
characters.
-/
def sharedPrefixHub : CleanupState where
  now := 0
  tokens := [("AAAAAAAA-old", Record.ofFields [("consumedBy", .str "spoke-1")]),
    ("AAAAAAAA-new", Record.ofFields [("expiresAt", .str "2026-01-01T00:00:00.000Z")])]
  users := [bootstrapUser "AAAAAAAA-new"]
  tick := .idle
  mint _ := .idle
  pair _ := .idle

def pairingSpoke : PairRequest where
  instanceId := "spoke-2"
  publicKey := "key-2"
  role := none
  endpoint := none
  signature := "signed"
  pairingToken := "token-1"
  tpsAgent := ""
  tpsAgentIsAdmin := false

def toFirstDrop : List CleanupLabel := [
  .begin hubRows, .listUsers (some [bootstrapUser "AAAAAAAA-new"]), .readClock, .scan true]

/-- A pairing claims the token before it expires and commits after the tick has scanned. -/
def toLateDelete : List CleanupLabel := [
  .readToken 0 pairingSpoke, .claimToken 0 "2026-01-01T00:00:00.000Z" "w-0", .wait 2000,
  .begin hubRows, .listUsers (some []), .readClock, .scan true, .commitClaim 0 true,
  .drop true false]

/-- A tick drops the user of a live token when a consumed one shares its first eight
characters, and deletes the row of a token consumed after the scan.
-/
theorem cleanup_harms_live_pairings
    : (∃ before after username, cleanup.Reachable before
        ∧ tickStep before (.drop true false) = some after
        ∧ username ∈ before.users ∧ username ∉ after.users
        ∧ NeedsUser before.tokens before.now username)
      ∧ ∃ before after id token, cleanup.Reachable before
        ∧ tickStep before (.delete true true) = some after
        ∧ before.tokens.get id = some token ∧ tokenConsumed token = true
        ∧ after.tokens.get id = none := by
  refine ⟨?dropped, ?deleted⟩
  case dropped =>
    let username := bootstrapUser "AAAAAAAA-new"
    have runs : (cleanup.run sharedPrefixHub toFirstDrop).any (fun before =>
        (tickStep before (.drop true false)).any (fun after =>
          before.users.contains username && !after.users.contains username
            && (before.tokens.get "AAAAAAAA-new").any (tokenLive · before.now))) = true := by
      decide
    obtain ⟨before, run, checks⟩ := Option.any_eq_true _ _ |>.mp runs
    obtain ⟨after, taken, checks⟩ := Option.any_eq_true _ _ |>.mp checks
    simp only [Bool.and_eq_true, Bool.not_eq_true', List.contains_iff_mem,
      Option.any_eq_true] at checks
    obtain ⟨⟨present, gone⟩, token, held, live⟩ := checks
    have initial : cleanup.initial sharedPrefixHub :=
      ⟨by simp [InsertionMap.Distinct, sharedPrefixHub], rfl, fun _ => rfl, fun _ => rfl⟩
    refine ⟨before, after, username, System.reachable_of_run initial run, taken, present, ?_,
      "AAAAAAAA-new", token, held, live, rfl⟩
    rw [← List.contains_iff_mem, gone]
    exact Bool.false_ne_true
  case deleted =>
    have runs : (cleanup.run expiringHub toLateDelete).any (fun before =>
        (tickStep before (.delete true true)).any (fun after =>
          (before.tokens.get "token-1").any tokenConsumed
            && (after.tokens.get "token-1").isNone)) = true := by
      decide
    obtain ⟨before, run, checks⟩ := Option.any_eq_true _ _ |>.mp runs
    obtain ⟨after, taken, checks⟩ := Option.any_eq_true _ _ |>.mp checks
    simp only [Bool.and_eq_true, Option.any_eq_true, Option.isNone_iff_eq_none] at checks
    obtain ⟨⟨token, held, consumed⟩, gone⟩ := checks
    have initial : cleanup.initial expiringHub :=
      ⟨by simp [InsertionMap.Distinct, expiringHub], rfl, fun _ => rfl, fun _ => rfl⟩
    exact ⟨before, after, "token-1", token, System.reachable_of_run initial run, taken, held,
      consumed, gone⟩

end Flair.Federation
