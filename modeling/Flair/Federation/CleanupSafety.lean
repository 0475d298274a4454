import Flair.Federation.PairingCleanup

/-! A cleanup tick beside mints and pairings. What the tick has still to drop and to delete
shrinks with its own steps; under a condition on the others' steps no live token names a
user to drop, and no row to delete is consumed.
-/

namespace Flair.Federation

open Dynamic Transition

-- What the tick has still to do

def NeedsUser (tokens : TokenTable) (now : Int) (username : UserName) : Prop :=
  ∃ id token, tokens.get id = some token ∧ tokenLive token now = true
    ∧ bootstrapUser id = username

def pendingDrops : TickStage → List UserName
  | .candidate tick token left | .housekeeping tick token left =>
    ((token :: left).map fun entry => bootstrapUser entry.1) ++ tick.toDrop
  | .sweeping _ username left => username :: left
  | _ => []

def AwaitsDelete : TickStage → String → Prop
  | .candidate tick token left, id | .housekeeping tick token left, id =>
    ∃ entry ∈ token :: left, entry.1 = id ∧ tokenExpiredAt entry.2 tick.now = true
      ∧ tokenConsumed entry.2 = false
  | _, _ => False

def listedUsers : TickStage → List UserName
  | .listed users _ | .scanning users _ _ | .finished users _ => users.getD []
  | .candidate tick _ _ | .housekeeping tick _ _ | .sweeping tick _ _ => tick.users.getD []
  | _ => []

/-- The condition on a step. When the tick scans, no live token shares its first eight
characters with a consumed or expired one; a minted token names no user the tick has still
to drop, and is not stored expired under the name of a listed one; a bootstrap user added
for a token that is no longer live is none the tick has listed; and no pairing commits its
consumption of a token the tick has still to delete.
-/
def KeepsApart : Guard CleanupState CleanupLabel
  | state, .scan _ =>
    ∀ id token other row, state.tokens.get id = some token
      → tokenLive token state.now = true → state.tokens.get other = some row
      → tokenLive row state.now = false → tokenPrefix id ≠ tokenPrefix other
  | state, .persistToken _ id createdAt expiresAt _ _ =>
    bootstrapUser id ∉ pendingDrops state.tick
      ∧ (bootstrapUser id ∈ listedUsers state.tick
        → tokenExpiredAt (state.minted id createdAt expiresAt) state.now = false)
  | state, .addUser mint _ _ =>
    ∀ id, state.mint mint = .persisted id → bootstrapUser id ∈ listedUsers state.tick
      → NeedsUser state.tokens state.now (bootstrapUser id)
  | state, .commitClaim pair _ =>
    ∀ request token, state.pair pair = .claimed request token
      → ¬ AwaitsDelete state.tick request.pairingToken
  | _, _ => True

theorem bootstrapUser_eq (id : String)
    : bootstrapUser id = BOOTSTRAP_USER_PREFIX ++ tokenPrefix id := rfl

variable {id : String}

theorem bootstrapUser_eq_iff {other : String}
    : bootstrapUser id = bootstrapUser other ↔ tokenPrefix id = tokenPrefix other := by
  rw [bootstrapUser_eq, bootstrapUser_eq, List.append_cancel_left_eq]

theorem prefix_bootstrapUser (id : String)
    : BOOTSTRAP_USER_PREFIX.isPrefixOf (bootstrapUser id) = true := by
  rw [List.isPrefixOf_iff_prefix, bootstrapUser_eq]
  exact List.prefix_append _ _

@[simp] theorem toDrop_drop (tick : TickData) (username : UserName) (fails : Bool)
    : (tick.drop username fails).toDrop = tick.toDrop := by
  unfold TickData.drop
  split <;> rfl

@[simp] theorem now_drop (tick : TickData) (username : UserName) (fails : Bool)
    : (tick.drop username fails).now = tick.now := by
  unfold TickData.drop
  split <;> rfl

@[simp] theorem users_drop (tick : TickData) (username : UserName) (fails : Bool)
    : (tick.drop username fails).users = tick.users := by
  unfold TickData.drop
  split <;> rfl

@[simp] theorem pendingDrops_sweepOn (tick : TickData) (left : List UserName)
    : pendingDrops (sweepOn tick left) = left := by
  cases left <;> rfl

variable {tick : TickData}

theorem mem_pendingDrops_candidatesOn {left : List TokenEntry} {username : UserName}
    : username ∈ pendingDrops (candidatesOn tick left)
      ↔ username ∈ (left.map fun entry => bootstrapUser entry.1) ++ tick.toDrop := by
  cases left with
  | nil => simp [candidatesOn]
  | cons token left => rfl

theorem not_awaitsDelete_sweepOn {left : List UserName}
    : ¬ AwaitsDelete (sweepOn tick left) id := by
  cases left <;> exact not_false

theorem awaitsDelete_candidatesOn {left : List TokenEntry}
    : AwaitsDelete (candidatesOn tick left) id
      ↔ ∃ entry ∈ left, entry.1 = id ∧ tokenExpiredAt entry.2 tick.now = true
        ∧ tokenConsumed entry.2 = false := by
  cases left with
  | nil => simp [candidatesOn, not_awaitsDelete_sweepOn]
  | cons token left => rfl

variable {stage : TickStage}

theorem AwaitsDelete.pending (awaits : AwaitsDelete stage id)
    : bootstrapUser id ∈ pendingDrops stage := by
  cases stage with
  | candidate tick token left | housekeeping tick token left =>
    obtain ⟨entry, member, rfl, -⟩ := awaits
    have named : bootstrapUser entry.1 ∈ (token :: left).map fun entry => bootstrapUser entry.1 :=
      List.mem_map.mpr ⟨entry, member, rfl⟩
    exact List.mem_append_left _ named
  | _ => exact awaits.elim

structure Shrinks (stage next : TickStage) : Prop where
  drops : ∀ username ∈ pendingDrops next, username ∈ pendingDrops stage
  deletes : ∀ id, AwaitsDelete next id → AwaitsDelete stage id

theorem Shrinks.refl (stage : TickStage) : Shrinks stage stage :=
  ⟨fun _ member => member, fun _ awaits => awaits⟩

theorem shrinks_afterDrop (fails : Bool) (stage : TickStage)
    : Shrinks stage (afterDrop fails stage) := by
  cases stage with
  | candidate tick token left =>
    simp only [afterDrop]
    split
    · refine ⟨?_, ?_⟩
      · intro username member
        simpa [pendingDrops] using member
      · rintro id ⟨entry, member, same, expired, fresh⟩
        exact ⟨entry, member, same, by simpa using expired, fresh⟩
    · refine ⟨?_, ?_⟩
      · intro username member
        rw [mem_pendingDrops_candidatesOn, toDrop_drop] at member
        exact List.mem_cons_of_mem _ member
      · intro id awaits
        obtain ⟨entry, member, same, expired, fresh⟩ := awaitsDelete_candidatesOn.mp awaits
        exact ⟨entry, List.mem_cons_of_mem _ member, same, by simpa using expired, fresh⟩
  | sweeping tick username left =>
    refine ⟨?_, ?_⟩
    · intro other member
      simp only [afterDrop, pendingDrops_sweepOn] at member
      exact List.mem_cons_of_mem _ member
    · intro id awaits
      exact absurd awaits not_awaitsDelete_sweepOn
  | _ => exact .refl _

theorem shrinks_afterDelete (confirmed : Bool) (stage : TickStage)
    : Shrinks stage (afterDelete confirmed stage) := by
  cases stage with
  | housekeeping tick token left =>
    refine ⟨?_, ?_⟩
    · intro username member
      simp only [afterDelete, mem_pendingDrops_candidatesOn] at member
      exact List.mem_cons_of_mem _ member
    · intro id awaits
      simp only [afterDelete, awaitsDelete_candidatesOn] at awaits
      obtain ⟨entry, member, same⟩ := awaits
      exact ⟨entry, List.mem_cons_of_mem _ member, same⟩
  | _ => exact .refl _

-- The invariant

/-- What is left to do harms no live token and no audit record. -/
structure StageSafe (tokens : TokenTable) (now : Int) (stage : TickStage) : Prop where
  spared : ∀ username ∈ pendingDrops stage, ¬ NeedsUser tokens now username
  prefixed : ∀ username ∈ pendingDrops stage, BOOTSTRAP_USER_PREFIX.isPrefixOf username = true
  expired : ∀ id, AwaitsDelete stage id → ∀ token, tokens.get id = some token
    → tokenConsumed token = false ∧ tokenExpiredAt token now = true

/-- What a step may leave under an id: the row that was there, a row whose user the tick has
not to drop, or a consumed row the tick has not to delete.
-/
def RowsKept (stage : TickStage) (before after : TokenTable) : Prop :=
  ∀ id token, after.get id = some token → before.get id = some token
    ∨ bootstrapUser id ∉ pendingDrops stage
    ∨ tokenConsumed token = true ∧ ¬ AwaitsDelete stage id

theorem RowsKept.refl (stage : TickStage) (tokens : TokenTable) : RowsKept stage tokens tokens :=
  fun _ _ held => .inl held

theorem RowsKept.delete (stage : TickStage) (tokens : TokenTable) (id : String)
    : RowsKept stage tokens (tokens.delete id) := by
  intro other token held
  rw [InsertionMap.get_delete] at held
  split at held
  · contradiction
  · exact .inl held

variable {now : Int}

theorem StageSafe.next {before after : TokenTable} {later : Int} {next : TickStage}
    (safe : StageSafe before now stage) (le : now ≤ later) (shrinks : Shrinks stage next)
    (rows : RowsKept stage before after)
    : StageSafe after later next := by
  refine ⟨?spared, fun username member => safe.prefixed username (shrinks.drops _ member),
    ?expired⟩
  case spared =>
    rintro username member ⟨id, token, held, live, rfl⟩
    have pending := shrinks.drops _ member
    rcases rows id token held with kept | apart | ⟨consumed, -⟩
    · exact safe.spared _ pending ⟨id, token, kept, tokenLive_anti le live, rfl⟩
    · exact apart pending
    · simp [tokenLive, consumed] at live
  case expired =>
    intro id awaits token held
    have before := shrinks.deletes id awaits
    rcases rows id token held with kept | apart | ⟨-, apart⟩
    · obtain ⟨fresh, expired⟩ := safe.expired id before token kept
      exact ⟨fresh, tokenExpiredAt_mono le expired⟩
    · exact absurd before.pending apart
    · exact absurd before apart

def PairSound : PairStage → Prop
  | .read request _ => request.instanceId ≠ ""
  | .claimed _ token => tokenConsumed token = true
  | _ => True

def scanClock : TickStage → Option Int
  | .scanning _ now _ => some now
  | _ => none

@[simp] theorem scanClock_sweepOn (tick : TickData) (left : List UserName)
    : scanClock (sweepOn tick left) = none := by
  cases left <;> rfl

@[simp] theorem scanClock_candidatesOn (tick : TickData) (left : List TokenEntry)
    : scanClock (candidatesOn tick left) = none := by
  cases left with
  | nil => exact scanClock_sweepOn tick _
  | cons => rfl

theorem scanClock_afterDrop {fails : Bool} (unread : scanClock stage = none)
    : scanClock (afterDrop fails stage) = none := by
  cases stage with
  | candidate tick token left =>
    simp only [afterDrop]
    split
    · rfl
    · exact scanClock_candidatesOn _ _
  | sweeping tick username left => exact scanClock_sweepOn _ _
  | _ => exact unread

/-- The row about to be deleted was read as expired and unconsumed. -/
def HousekeepsDead : TickStage → Prop
  | .housekeeping tick token _ =>
    tokenExpiredAt token.2 tick.now = true ∧ tokenConsumed token.2 = false
  | _ => True

theorem housekeepsDead_sweepOn (tick : TickData) (left : List UserName)
    : HousekeepsDead (sweepOn tick left) := by
  cases left <;> exact trivial

theorem housekeepsDead_candidatesOn (tick : TickData) (left : List TokenEntry)
    : HousekeepsDead (candidatesOn tick left) := by
  cases left with
  | nil => exact housekeepsDead_sweepOn tick _
  | cons => exact trivial

theorem housekeepsDead_afterDrop {fails : Bool} (dead : HousekeepsDead stage)
    : HousekeepsDead (afterDrop fails stage) := by
  cases stage with
  | candidate tick token left =>
    simp only [afterDrop]
    split
    case isTrue expired =>
      rw [Bool.and_eq_true, Bool.not_eq_true'] at expired
      exact ⟨by simpa using expired.1, expired.2⟩
    · exact housekeepsDead_candidatesOn _ _
  | sweeping tick username left => exact housekeepsDead_sweepOn _ _
  | _ => exact dead

theorem housekeepsDead_afterDelete {confirmed : Bool} (dead : HousekeepsDead stage)
    : HousekeepsDead (afterDelete confirmed stage) := by
  cases stage with
  | housekeeping tick token left => exact housekeepsDead_candidatesOn _ _
  | _ => exact dead

structure CleanupInvariant (state : CleanupState) : Prop where
  distinct : InsertionMap.Distinct state.tokens
  clock : ∀ now ∈ scanClock state.tick, now ≤ state.now
  dead : HousekeepsDead state.tick
  safe : StageSafe state.tokens state.now state.tick
  pairs : ∀ pair, PairSound (state.pair pair)

variable {tokens : TokenTable}

theorem safe_of_nothing_pending (none : pendingDrops stage = [])
    : StageSafe tokens now stage := by
  refine ⟨by simp [none], by simp [none], ?_⟩
  intro id awaits
  simpa [none] using awaits.pending

theorem safe_scanned {later : Int} {users : Option (List UserName)} {failed : Bool}
    (distinct : InsertionMap.Distinct tokens) (le : now ≤ later)
    (apart : ∀ id token other row, tokens.get id = some token → tokenLive token later = true
      → tokens.get other = some row → tokenLive row later = false
      → tokenPrefix id ≠ tokenPrefix other)
    : StageSafe tokens later (scanned users now failed tokens) := by
  refine ⟨?spared, ?prefixed, ?expired⟩
  case spared =>
    rintro username member ⟨id, token, held, live, rfl⟩
    rcases List.mem_append.mp (mem_pendingDrops_candidatesOn.mp member) with candidate | swept
    · obtain ⟨⟨other, row⟩, listed, same⟩ := List.mem_map.mp candidate
      obtain ⟨stored, dead⟩ := List.mem_filter.mp listed
      refine apart id token other row held live (distinct.get_of_mem stored) ?_
        (bootstrapUser_eq_iff.mp same.symm)
      rw [← Bool.not_eq_true]
      intro alive
      have alive := tokenLive_anti le alive
      simp only [isCandidate, Bool.or_eq_true] at dead
      simp only [tokenLive, Bool.and_eq_true, Bool.not_eq_true'] at alive
      rcases dead with consumed | expired
      · simp [alive.1] at consumed
      · simp [alive.2] at expired
    · simp only [TickData.toDrop, List.mem_filter, Bool.and_eq_true, Bool.not_eq_true',
        bootstrapUser_eq, List.drop_left] at swept
      obtain ⟨-, -, unnamed⟩ := swept
      have alive := tokenLive_anti le live
      simp only [tokenLive, Bool.and_eq_true, Bool.not_eq_true'] at alive
      refine absurd unnamed ?_
      rw [Bool.not_eq_false, List.contains_iff_mem]
      have stored : (id, token) ∈ tokens := InsertionMap.mem_of_get held
      refine List.mem_map.mpr ⟨(id, token), List.mem_filter.mpr ⟨stored, ?_⟩, rfl⟩
      simp [isCandidate, alive.1, alive.2]
  case prefixed =>
    intro username member
    rcases List.mem_append.mp (mem_pendingDrops_candidatesOn.mp member) with candidate | swept
    · obtain ⟨entry, -, rfl⟩ := List.mem_map.mp candidate
      exact prefix_bootstrapUser entry.1
    · simp only [TickData.toDrop, List.mem_filter, Bool.and_eq_true] at swept
      exact swept.2.1
  case expired =>
    intro id awaits token held
    obtain ⟨⟨other, row⟩, listed, rfl, expired, fresh⟩ := awaitsDelete_candidatesOn.mp awaits
    have stored := distinct.get_of_mem (List.mem_filter.mp listed).1
    obtain rfl : row = token := Option.some.inj (stored.symm.trans held)
    exact ⟨fresh, tokenExpiredAt_mono le expired⟩

-- Steps

@[simp] theorem drop_tokens (state : CleanupState) (username : UserName) (applied : Bool)
    : (state.drop username applied).tokens = state.tokens := by
  unfold CleanupState.drop
  split <;> rfl

@[simp] theorem drop_now (state : CleanupState) (username : UserName) (applied : Bool)
    : (state.drop username applied).now = state.now := by
  unfold CleanupState.drop
  split <;> rfl

@[simp] theorem drop_pair (state : CleanupState) (username : UserName) (applied : Bool)
    : (state.drop username applied).pair = state.pair := by
  unfold CleanupState.drop
  split <;> rfl

@[simp] theorem delete_now (state : CleanupState) (id : String) (applied : Bool)
    : (state.delete id applied).now = state.now := by
  unfold CleanupState.delete
  split <;> rfl

@[simp] theorem delete_pair (state : CleanupState) (id : String) (applied : Bool)
    : (state.delete id applied).pair = state.pair := by
  unfold CleanupState.delete
  split <;> rfl

theorem delete_rows (stage : TickStage) (state : CleanupState) (id : String) (applied : Bool)
    : RowsKept stage state.tokens (state.delete id applied).tokens := by
  unfold CleanupState.delete
  split
  · exact .delete stage state.tokens id
  · exact .refl stage state.tokens

variable {state : CleanupState}

theorem delete_distinct (distinct : InsertionMap.Distinct state.tokens) (id : String)
    (applied : Bool)
    : InsertionMap.Distinct (state.delete id applied).tokens := by
  unfold CleanupState.delete
  split
  · exact distinct.delete
  · exact distinct

variable {next : CleanupState} {label : CleanupLabel}

/-- A step of the tick keeps the invariant; its scan by the condition, the rest because less
is left to do.
-/
theorem tickStep_keeps (holds : CleanupInvariant state) (apart : KeepsApart state label)
    (taken : tickStep state label = some next)
    : CleanupInvariant next := by
  cases label with
  | begin rows =>
    simp only [tickStep] at taken
    split at taken
    · split at taken <;> cases taken <;>
        exact ⟨holds.distinct, by simp [scanClock], trivial, safe_of_nothing_pending rfl,
        holds.pairs⟩
    · contradiction
  | listUsers _ | readClock =>
    simp only [tickStep] at taken
    split at taken
    · cases taken
      exact ⟨holds.distinct, by simp [scanClock], trivial, safe_of_nothing_pending rfl,
        holds.pairs⟩
    · contradiction
  | scan readable =>
    simp only [tickStep] at taken
    split at taken
    case h_1 users now failed scanning =>
      split at taken
      · cases taken
        refine ⟨holds.distinct, by simp [scanned], housekeepsDead_candidatesOn _ _, ?_,
          holds.pairs⟩
        exact safe_scanned holds.distinct (holds.clock now (by simp [scanning, scanClock])) apart
      · cases taken
        exact ⟨holds.distinct, by simp [scanClock], trivial, safe_of_nothing_pending rfl,
        holds.pairs⟩
    · contradiction
  | drop applied fails =>
    have unread : ∀ fails, scanClock (afterDrop fails state.tick) = none := by
      intro fails
      refine scanClock_afterDrop ?_
      simp only [tickStep] at taken
      split at taken
      all_goals first | contradiction | simp [scanClock, *]
    have kept : ∀ fails, StageSafe state.tokens state.now (afterDrop fails state.tick) :=
      fun fails => holds.safe.next le_rfl (shrinks_afterDrop fails _) (.refl _ _)
    simp only [tickStep] at taken
    split at taken
    case h_3 => contradiction
    all_goals
      split at taken <;> cases taken
      · exact ⟨holds.distinct, by simp [unread], housekeepsDead_afterDrop holds.dead, kept false,
          holds.pairs⟩
      · exact ⟨by simpa using holds.distinct, by simp [unread],
          housekeepsDead_afterDrop holds.dead, by simpa using kept fails,
          by simpa using holds.pairs⟩
  | delete applied confirmed =>
    simp only [tickStep] at taken
    split at taken
    · contradiction
    case h_2 id pending =>
      cases taken
      have unread : scanClock (afterDelete confirmed state.tick) = none := by
        revert pending
        cases state.tick <;> simp [pendingDelete, afterDelete]
      refine ⟨delete_distinct holds.distinct id _, by simp [unread],
        housekeepsDead_afterDelete holds.dead, ?_, by simpa using holds.pairs⟩
      simpa using holds.safe.next le_rfl (shrinks_afterDelete confirmed _)
        (delete_rows _ state id (applied || confirmed))
  | _ => contradiction

def FreshRows (stage : TickStage) (now : Int) (before after : TokenTable) : Prop :=
  ∀ id token, after.get id = some token → before.get id = some token
    ∨ tokenConsumed token = true
    ∨ (bootstrapUser id ∈ listedUsers stage → tokenExpiredAt token now = false)

theorem FreshRows.refl (stage : TickStage) (now : Int) (tokens : TokenTable)
    : FreshRows stage now tokens tokens :=
  fun _ _ held => .inl held

theorem FreshRows.delete (stage : TickStage) (now : Int) (tokens : TokenTable) (id : String)
    : FreshRows stage now tokens (tokens.delete id) := by
  intro other token held
  rw [InsertionMap.get_delete] at held
  split at held
  · contradiction
  · exact .inl held

variable {token : Record}

theorem FreshRows.set
    (allowed : tokenConsumed token = true
      ∨ (bootstrapUser id ∈ listedUsers stage → tokenExpiredAt token now = false))
    : FreshRows stage now tokens (tokens.set id token) := by
  intro other held found
  rw [InsertionMap.get_set] at found
  split at found
  case isTrue same =>
    cases found
    subst same
    exact .inr allowed
  · exact .inl found

/-- What a step beside the tick leaves: the tick itself, later time, kept rows, pairings as
sound as before, and no listed user added but one that a live token needs.
-/
structure Beside (before after : CleanupState) : Prop where
  tick : after.tick = before.tick
  now : before.now ≤ after.now
  rows : RowsKept before.tick before.tokens after.tokens
  fresh : FreshRows before.tick after.now before.tokens after.tokens
  distinct : InsertionMap.Distinct before.tokens → InsertionMap.Distinct after.tokens
  pairs : (∀ pair, PairSound (before.pair pair)) → ∀ pair, PairSound (after.pair pair)
  users : ∀ username ∈ after.users, username ∈ before.users
    ∨ (username ∈ listedUsers before.tick → NeedsUser before.tokens before.now username)

theorem Beside.refl (state : CleanupState) : Beside state state :=
  ⟨rfl, le_rfl, .refl _ _, .refl _ _ _, id, id, fun _ member => .inl member⟩

variable {before after : CleanupState}

theorem Beside.gotoMint (beside : Beside before after) (mint : Nat) (stage : MintStage)
    : Beside before (after.gotoMint mint stage) :=
  ⟨beside.tick, beside.now, beside.rows, beside.fresh, beside.distinct, beside.pairs,
    beside.users⟩

theorem Beside.gotoPair (beside : Beside before after) (pair : Nat) {stage : PairStage}
    (sound : (∀ pair, PairSound (before.pair pair)) → PairSound stage)
    : Beside before (after.gotoPair pair stage) := by
  refine ⟨beside.tick, beside.now, beside.rows, beside.fresh, beside.distinct, ?_, beside.users⟩
  intro all other
  by_cases same : other = pair
  · subst same
    simpa [CleanupState.gotoPair] using sound all
  · simpa [CleanupState.gotoPair, same] using beside.pairs all other

theorem Beside.drop (state : CleanupState) (username : UserName) (applied : Bool)
    : Beside state (state.drop username applied) := by
  unfold CleanupState.drop
  split
  · exact ⟨rfl, le_rfl, .refl _ _, .refl _ _ _, id, id,
      fun _ member => .inl (List.mem_of_mem_filter member)⟩
  · exact .refl state

theorem Beside.delete (state : CleanupState) (id : String) (applied : Bool)
    : Beside state (state.delete id applied) := by
  unfold CleanupState.delete
  split
  · exact ⟨rfl, le_rfl, .delete _ _ id, .delete _ _ _ id, fun distinct => distinct.delete,
      fun sound => sound, fun _ member => .inl member⟩
  · exact .refl state

theorem RowsKept.set
    (allowed : bootstrapUser id ∉ pendingDrops stage
      ∨ tokenConsumed token = true ∧ ¬ AwaitsDelete stage id)
    : RowsKept stage tokens (tokens.set id token) := by
  intro other held found
  rw [InsertionMap.get_set] at found
  split at found
  case isTrue same =>
    cases found
    subst same
    exact .inr allowed
  · exact .inl found

theorem consumed_of_claim {request : PairRequest} {stored : Option Record}
    {nowIso pairAttemptWriteId : String} (named : request.instanceId ≠ "")
    (claim : consumePairingToken request stored nowIso pairAttemptWriteId = .consumed token)
    : tokenConsumed token = true := by
  unfold consumePairingToken at claim
  split at claim
  · contradiction
  split at claim
  · contradiction
  split at claim
  · contradiction
  split at claim
  · contradiction
  · obtain rfl := PairingTokenClaim.consumed.inj claim
    simp [tokenConsumed, truthy, named]

theorem otherStep_beside (sound : ∀ pair, PairSound (state.pair pair))
    (apart : KeepsApart state label) (taken : otherStep state label = some next)
    : Beside state next := by
  cases label with
  | wait elapsed =>
    cases taken
    exact ⟨rfl, by simp, .refl _ _, .refl _ _ _, id, id, fun _ member => .inl member⟩
  | persistToken mint id createdAt expiresAt applied accepted =>
    simp only [otherStep] at taken
    split at taken
    · cases taken
      refine Beside.gotoMint ?_ mint _
      split
      · exact ⟨rfl, le_rfl, .set (.inl apart.1), .set (.inr apart.2),
          fun distinct => distinct.modify _, fun sound => sound, fun _ member => .inl member⟩
      · exact .refl state
    · contradiction
  | addUser mint applied accepted =>
    simp only [otherStep] at taken
    split at taken
    case h_1 id persisted =>
      split at taken
      · cases taken
        exact (Beside.refl state).gotoMint mint _
      cases taken
      refine Beside.gotoMint ?_ mint _
      split
      · refine ⟨rfl, le_rfl, .refl _ _, .refl _ _ _, fun held => held, fun sound => sound, ?_⟩
        intro username member
        rcases List.mem_cons.mp member with rfl | member
        · exact .inr (apart id persisted)
        · exact .inl member
      · exact .refl state
    · contradiction
  | rollback mint applied =>
    simp only [otherStep] at taken
    split at taken
    · cases taken
      exact (Beside.delete state _ applied).gotoMint mint _
    · contradiction
  | readToken pair request =>
    simp only [otherStep] at taken
    split at taken
    · split at taken
      · cases taken
        exact (Beside.refl state).gotoPair pair fun _ => trivial
      case isFalse named =>
        cases taken
        exact (Beside.refl state).gotoPair pair fun _ => named
    · contradiction
  | claimToken pair nowIso pairAttemptWriteId =>
    simp only [otherStep] at taken
    split at taken
    case h_1 request stored read =>
      split at taken
      · split at taken
        case h_1 token claim =>
          cases taken
          refine (Beside.refl state).gotoPair pair ?_
          intro sound
          have named := sound pair
          rw [read] at named
          exact consumed_of_claim named claim
        case h_2 =>
          cases taken
          exact (Beside.refl state).gotoPair pair fun _ => trivial
      · contradiction
    · contradiction
  | commitClaim pair landed =>
    simp only [otherStep] at taken
    split at taken
    case h_1 request token claimed =>
      split at taken
      · cases taken
        refine Beside.gotoPair ?_ pair fun _ => trivial
        have consumed := sound pair
        rw [claimed] at consumed
        exact ⟨rfl, le_rfl, .set (.inr ⟨consumed, apart request token claimed⟩),
          .set (.inl consumed), fun distinct => distinct.modify _, fun sound => sound,
          fun _ member => .inl member⟩
      · cases taken
        exact (Beside.refl state).gotoPair pair fun _ => trivial
    · contradiction
  | dropOwnUser pair applied =>
    simp only [otherStep] at taken
    split at taken
    · cases taken
      exact (Beside.drop state _ applied).gotoPair pair fun _ => trivial
    · contradiction
  | _ => contradiction

theorem cleanupStep_keeps (holds : CleanupInvariant state) (apart : KeepsApart state label)
    (taken : cleanup.step state label = some next)
    : CleanupInvariant next := by
  rcases Option.or_eq_some_iff.mp taken with tick | ⟨-, other⟩
  · exact tickStep_keeps holds apart tick
  have beside := otherStep_beside holds.pairs apart other
  refine ⟨beside.distinct holds.distinct, ?_, beside.tick ▸ holds.dead, ?_,
    beside.pairs holds.pairs⟩
  · rw [beside.tick]
    exact fun now read => (holds.clock now read).trans beside.now
  · rw [beside.tick]
    exact holds.safe.next beside.now (.refl _) beside.rows

theorem cleanup_invariant (run : cleanup.ReachableUnder KeepsApart state)
    : CleanupInvariant state := by
  refine run.invariant ?_ fun before label after holds apart taken =>
    cleanupStep_keeps holds apart taken
  rintro state ⟨distinct, idle, -, pairs⟩
  refine ⟨distinct, by simp [idle, scanClock], by simp [idle, HousekeepsDead], ?_,
    fun pair => by simp [pairs pair, PairSound]⟩
  exact safe_of_nothing_pending (by simp [idle, pendingDrops])

/-- What a tick's step takes away: bootstrap users that no live token needs, and rows of
expired tokens that were not consumed.
-/
structure Harmless (before after : CleanupState) : Prop where
  users : ∀ username ∈ before.users, username ∉ after.users
    → BOOTSTRAP_USER_PREFIX.isPrefixOf username = true
      ∧ ¬ NeedsUser before.tokens before.now username
  tokens : ∀ id token, before.tokens.get id = some token → after.tokens.get id ≠ some token
    → tokenConsumed token = false ∧ tokenExpiredAt token before.now = true

theorem Harmless.of_same (users : after.users = before.users)
    (tokens : after.tokens = before.tokens)
    : Harmless before after :=
  ⟨fun _ held gone => absurd (users ▸ held) gone,
    fun _ _ held gone => absurd (tokens ▸ held) gone⟩

theorem mem_pendingDrops_of_pendingDrop {username : UserName}
    (pending : pendingDrop stage = some username)
    : username ∈ pendingDrops stage := by
  cases stage with
  | candidate tick token left =>
    simp only [pendingDrop, Option.ite_none_left_eq_some, Option.some.injEq] at pending
    obtain ⟨-, rfl⟩ := pending
    exact List.mem_append_left _ List.mem_cons_self
  | sweeping tick other left =>
    simp only [pendingDrop, Option.ite_none_left_eq_some, Option.some.injEq] at pending
    obtain ⟨-, rfl⟩ := pending
    exact List.mem_cons_self
  | _ => contradiction

theorem tickStep_harmless (holds : CleanupInvariant state)
    (taken : tickStep state label = some next)
    : Harmless state next := by
  cases label with
  | begin rows | listUsers result | readClock | scan readable =>
    simp only [tickStep] at taken
    split at taken
    · first
      | (obtain rfl := Option.some.inj taken; exact .of_same rfl rfl)
      | (split at taken <;> cases taken <;> exact .of_same rfl rfl)
    · contradiction
  | drop applied fails =>
    simp only [tickStep] at taken
    split at taken
    case h_3 => contradiction
    all_goals
      split at taken
      · cases taken
        exact .of_same rfl rfl
      case h_2 username pending =>
        cases taken
        have listed := mem_pendingDrops_of_pendingDrop pending
        refine ⟨?_, fun id token held gone => absurd (by simpa using held) gone⟩
        intro other present gone
        obtain rfl : other = username := by
          by_contra apart
          refine gone ?_
          unfold CleanupState.drop
          split
          · exact List.mem_filter.mpr ⟨present, by simpa using apart⟩
          · exact present
        exact ⟨holds.safe.prefixed other listed, holds.safe.spared other listed⟩
  | delete applied confirmed =>
    simp only [tickStep] at taken
    split at taken
    · contradiction
    case h_2 id pending =>
      cases taken
      have awaits : AwaitsDelete state.tick id := by
        have dead := holds.dead
        revert pending dead
        cases state.tick with
        | housekeeping tick token left =>
          rintro ⟨rfl⟩ dead
          exact ⟨token, List.mem_cons_self, rfl, dead⟩
        | _ => simp [pendingDelete]
      unfold CleanupState.delete
      refine ⟨fun other present gone => absurd present ?_, ?_⟩
      · revert gone
        split <;> exact fun gone => gone
      intro other token held gone
      obtain rfl : other = id := by
        by_contra apart
        refine gone ?_
        split
        · simpa [apart] using held
        · exact held
      exact holds.safe.expired other awaits token held
  | _ => contradiction

end Flair.Federation
