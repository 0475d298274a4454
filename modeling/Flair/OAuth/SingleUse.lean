import Flair.OAuth.RequestSteps

/-! Single use over every run of the endpoints: a code yields at most one pair, a refresh token
at most one rotation, none after its revoke has succeeded.
-/

namespace Flair.OAuth

open Dynamic KeyLedger Transition

variable {hashes : OAuthHashes}

-- Tables, knowledge and locks

structure OAuthState.Basic (hashes : OAuthHashes) (state : OAuthState) : Prop where
  sound : state.tables.Sound
  knows : ∀ request, Knows hashes state.tables (state.stage request)
  locks : ∀ request, state.lock.HoldsExactly request (state.stage request).held.toList

variable {before after : OAuthState} {label : OAuthLabel}

theorem oauthStep_cases (h : oauthStep hashes before label = some after)
    : (∃ tables, before.tables.Advances tables ∧ after = { before with tables })
      ∨ ∃ request act move, label = .request request act
        ∧ requestStep hashes before.tables before.lock request (before.stage request) act
          = some move
        ∧ after = before.apply request move := by
  cases label with
  | tick elapsed =>
    obtain ⟨tables, ticked, rfl⟩ := Option.map_eq_some_iff.mp h
    exact Or.inl ⟨tables, OAuthTables.advances_tick ticked, rfl⟩
  | authorize authCode =>
    obtain ⟨tables, authorized, rfl⟩ := Option.map_eq_some_iff.mp h
    exact Or.inl ⟨tables, OAuthTables.advances_authorize authorized, rfl⟩
  | request request act =>
    obtain ⟨move, taken, rfl⟩ := Option.map_eq_some_iff.mp h
    exact Or.inr ⟨request, act, move, rfl, taken, rfl⟩
  | otherGrant clientId principalId scope draw stored =>
    obtain ⟨tables, granted, rfl⟩ := Option.map_eq_some_iff.mp h
    simp only [otherGrantStep, Option.ite_none_right_eq_some, Option.some.injEq] at granted
    obtain ⟨ok, rfl⟩ := granted
    exact Or.inl ⟨_, OAuthTables.advances_pairRows (Draw.new_of_ok ok) _ _ _ stored, rfl⟩
  | expireClaim key =>
    obtain ⟨tables, expired, rfl⟩ := Option.map_eq_some_iff.mp h
    exact Or.inl ⟨tables, OAuthTables.advances_expireClaim expired, rfl⟩

theorem OAuthState.Basic.advances (h : before.Basic hashes)
    (taken : oauthStep hashes before label = some after)
    : before.tables.Advances after.tables := by
  rcases oauthStep_cases taken with ⟨tables, advances, rfl⟩ | ⟨request, act, move, -, moved, rfl⟩
  · exact advances
  · exact (requestStep_keeps (h.knows request) moved).1

theorem OAuthState.Basic.next (h : before.Basic hashes)
    (taken : oauthStep hashes before label = some after)
    : after.Basic hashes := by
  obtain ⟨evolves, sound⟩ := h.advances taken h.sound
  rcases oauthStep_cases taken with ⟨tables, -, rfl⟩ | ⟨request, act, move, -, moved, rfl⟩
  · exact ⟨sound, fun request => (h.knows request).later evolves, h.locks⟩
  have locked := (requestStep_effects moved).locks
  refine ⟨sound, ?_, ?_⟩
  · intro other
    by_cases same : other = request
    · subst same
      simpa [OAuthState.apply] using (requestStep_keeps (h.knows other) moved).2 h.sound
    · simpa [OAuthState.apply, same] using (h.knows other).later evolves
  · intro other
    by_cases same : other = request
    · subst same
      simpa [OAuthState.apply] using locked.own (h.locks other)
    · simpa [OAuthState.apply, same] using locked.other (h.locks request) (h.locks other) same

variable {state : OAuthState}

theorem basic_initial (h : (oauthEndpoints hashes).initial state)
    : state.Basic hashes := by
  obtain ⟨codes, tokens, claims, presented, lock, stage, -⟩ := h
  refine ⟨⟨?_, ?_, ?_, ?_⟩, ?_, ?_⟩
  · simp [tokens]
  · simp [tokens]
  · simp [codes]
  · simp [claims]
  · intro request
    rw [stage request]
    trivial
  · intro request key
    simp [lock, stage request, RequestStage.held, Ledger.fresh]

variable {tokenHash : String}

theorem OAuthState.Basic.holder_unique (h : state.Basic hashes) {left right : Nat}
    (holds : (state.stage left).held = some tokenHash)
    (also : (state.stage right).held = some tokenHash)
    : left = right :=
  (h.locks left).unique (h.locks right) holds also

theorem RequestStage.held_of_rotates {stage : RequestStage} (h : stage.rotates = some tokenHash)
    : stage.held = some tokenHash := by
  cases stage <;> first | exact h | cases h

-- Closed tokens

def Spent (tables : OAuthTables) (tokenHash : String) : Prop :=
  ∃ time, (∀ row ∈ tables.tokens, row.tokenHash = tokenHash → row.tokenType = .refresh
      → row.expiresAt ≤ time + refreshTokenTtlMs)
    ∧ (tables.claims (.refresh tokenHash) = some time
      ∨ time + singleUseRetentionMs ≤ tables.clock)

def OAuthState.Closed (state : OAuthState) (tokenHash : String) : Prop :=
  tokenHash ∈ state.tables.presented
    ∧ ((∀ row ∈ state.tables.tokens, row.tokenHash = tokenHash → row.tokenType ≠ .refresh)
      ∨ (Spent state.tables tokenHash
        ∧ ∀ request, (state.stage request).rotates ≠ some tokenHash))

theorem OAuthTables.Evolves.older {before after : OAuthTables} (h : before.Evolves after)
    {row : TokenRow} (member : row ∈ after.tokens) (presented : row.tokenHash ∈ before.presented)
    : before.Tracks row := by
  rcases h.origin row member with tracked | unknown
  · exact tracked
  · exact absurd presented unknown

theorem Spent.later {before after : OAuthTables} (h : Spent before tokenHash)
    (evolves : before.Evolves after) (presented : tokenHash ∈ before.presented)
    : Spent after tokenHash := by
  obtain ⟨time, lifetimes, claimed⟩ := h
  refine ⟨time, ?_, ?_⟩
  · intro row member sameHash isRefresh
    obtain ⟨old, found, same⟩ := evolves.older member (sameHash ▸ presented)
    rw [same.expiresAt]
    exact lifetimes old found (same.tokenHash.symm.trans sameHash)
      (same.tokenType.symm.trans isRefresh)
  · rcases claimed with stored | expired
    · exact evolves.claims _ time stored
    · exact Or.inr (Int.le_trans expired evolves.clock)

theorem OAuthTables.Sound.spent {tables : OAuthTables} (h : tables.Sound)
    (claimed : (tables.claims (.refresh tokenHash)).isSome)
    : Spent tables tokenHash := by
  obtain ⟨time, stored⟩ := Option.isSome_iff_exists.mp claimed
  exact ⟨time, (h.claims tokenHash time stored).2, Or.inl stored⟩

theorem Spent.not_reclaimed {tables : OAuthTables} {row : TokenRow} {checkedAt : Int}
    (h : Spent tables tokenHash) (refreshes : RefreshOf tables tokenHash row)
    (checked : checkedAt ≤ row.expiresAt)
    (prompt : tables.clock < checkedAt + (singleUseRetentionMs - refreshTokenTtlMs))
    (free : tables.claims (.refresh tokenHash) = none)
    : False := by
  obtain ⟨time, lifetimes, stored | expired⟩ := h
  · rw [free] at stored
    cases stored
  obtain ⟨found, member, same⟩ := refreshes.tracked
  have bound := lifetimes found member (same.tokenHash.symm.trans refreshes.hash)
    (same.tokenType.symm.trans refreshes.isRefresh)
  rw [← same.expiresAt] at bound
  omega

theorem OAuthState.Closed.next (h : before.Closed tokenHash) (basic : before.Basic hashes)
    (prompt : ClaimsPromptly before label) (taken : oauthStep hashes before label = some after)
    : after.Closed tokenHash := by
  obtain ⟨evolves, -⟩ := basic.advances taken basic.sound
  obtain ⟨presented, none | ⟨spent, quiet⟩⟩ := h
  · refine ⟨evolves.presented _ presented, Or.inl ?_⟩
    intro row member sameHash
    obtain ⟨old, found, same⟩ := evolves.older member (sameHash ▸ presented)
    rw [same.tokenType]
    exact none old found (same.tokenHash.symm.trans sameHash)
  · refine ⟨evolves.presented _ presented, Or.inr ⟨spent.later evolves presented, ?_⟩⟩
    rcases oauthStep_cases taken with ⟨tables, -, rfl⟩ | ⟨request, act, move, rfl, moved, rfl⟩
    · exact quiet
    intro other rotates
    by_cases same : other = request
    · subst same
      have starts : move.stage.rotates = some tokenHash := by
        simpa [OAuthState.apply] using rotates
      have effects := requestStep_effects moved
      rcases effects.rotates starts with already | ⟨row, checkedAt, choice, at', rfl, free⟩
      · exact quiet other already
      have knows := basic.knows other
      rw [at'] at knows
      have soon : before.tables.clock
          < checkedAt + (singleUseRetentionMs - refreshTokenTtlMs) := by
        simpa [ClaimsPromptly, at'] using prompt
      exact spent.not_reclaimed knows.1 knows.2 soon free
    · exact quiet other (by simpa [OAuthState.apply, same] using rotates)

def Dead (tables : OAuthTables) (tokenHash : String) : Prop :=
  tokenHash ∈ tables.presented
    ∧ ∀ row ∈ tables.tokens, row.tokenHash = tokenHash → row.revokedAt.isSome

theorem Dead.later {before after : OAuthTables} (h : Dead before tokenHash)
    (evolves : before.Evolves after) (sound : after.Sound)
    : Dead after tokenHash := by
  obtain ⟨presented, revoked⟩ := h
  refine ⟨evolves.presented _ presented, ?_⟩
  intro row member sameHash
  obtain ⟨old, found, same⟩ := evolves.older member (sameHash ▸ presented)
  obtain ⟨later, kept, version, still⟩ := evolves.kept old found
  have isLater : row = later :=
    sound.distinct row member later kept (Or.inl (same.id.trans version.id))
  exact isLater ▸ still (revoked old found (same.tokenHash.symm.trans sameHash))

-- The history

def MayFollow : OAuthEvent → OAuthEvent → Prop
  | .issued exchange _, .issued earlier _ => exchange.code ≠ earlier.code
  | .rotated tokenHash _, .rotated earlier _ => tokenHash ≠ earlier
  | .rotated tokenHash _, .revoked earlier _ => tokenHash ≠ earlier
  | _, _ => True

structure Redeemed (hashes : OAuthHashes) (tables : OAuthTables) (exchange : ExchangeRequest)
    (time : Int)
    : Prop where
  lifetime : ∃ authCode, tables.HasCode exchange.code authCode
    ∧ authCode.expiresAt ≤ time + authCodeTtlMs
  claimed : tables.claims (.code (hashes.sha256 exchange.code)) = some time
    ∨ time + singleUseRetentionMs ≤ tables.clock

theorem Redeemed.later {before after : OAuthTables} {exchange : ExchangeRequest} {time : Int}
    (h : Redeemed hashes before exchange time) (evolves : before.Evolves after)
    : Redeemed hashes after exchange time := by
  obtain ⟨⟨authCode, stored, expires⟩, claimed⟩ := h
  refine ⟨⟨authCode, evolves.hasCode stored, expires⟩, ?_⟩
  rcases claimed with recorded | expired
  · exact evolves.claims _ time recorded
  · exact Or.inr (Int.le_trans expired evolves.clock)

theorem OAuthTables.HasCode.expiresAt {tables : OAuthTables} {code : String}
    {left right : AuthCodeRow} (h : tables.HasCode code left) (also : tables.HasCode code right)
    : left.expiresAt = right.expiresAt := by
  obtain ⟨stored, found, same⟩ := h
  obtain ⟨other, alsoFound, version⟩ := also
  rw [found] at alsoFound
  cases alsoFound
  have first : left.expiresAt = stored.expiresAt := by rw [← same]
  have second : right.expiresAt = stored.expiresAt := by rw [← version]
  exact first.trans second.symm

theorem Redeemed.not_again {tables : OAuthTables} {exchange again : ExchangeRequest}
    {time : Int} {authCode : AuthCodeRow} (h : Redeemed hashes tables exchange time)
    (same : again.code = exchange.code) (stored : tables.HasCode again.code authCode)
    (current : tables.clock ≤ authCode.expiresAt)
    (free : tables.claims (.code (hashes.sha256 again.code)) = none)
    : False := by
  obtain ⟨⟨first, found, expires⟩, claimed⟩ := h
  rw [same] at stored free
  have together := found.expiresAt stored
  rcases claimed with recorded | expired
  · rw [free] at recorded
    cases recorded
  · have shorter : authCodeTtlMs < singleUseRetentionMs := by decide
    omega

/-- What the log says of every run: who redeemed each code and answered its pair, and which
tokens are rotated or revoked for good.
-/
structure OAuthState.History (hashes : OAuthHashes) (state : OAuthState) : Prop where
  redeemed : ∀ exchange request time, .redeemed exchange request time ∈ state.log
    → Redeemed hashes state.tables exchange time
  redeemer : ∀ exchange request time other another later,
    .redeemed exchange request time ∈ state.log → .redeemed other another later ∈ state.log
      → exchange.code = other.code → request = another
  pending : ∀ request exchange, (state.stage request).redeems = some exchange
    → (∃ time, .redeemed exchange request time ∈ state.log)
      ∧ ∀ other, .issued other request ∉ state.log
  issued : ∀ exchange request, .issued exchange request ∈ state.log
    → (∃ time, .redeemed exchange request time ∈ state.log)
      ∧ (∃ answer, state.stage request = .answered answer)
      ∧ ∃ authCode, Verified hashes state.tables exchange authCode
  closing : ∀ request tokenHash, (state.stage request).closes = some tokenHash
    → state.Closed tokenHash
  revoked : ∀ tokenHash request, .revoked tokenHash request ∈ state.log
    → state.Closed tokenHash
  rotated : ∀ tokenHash request, .rotated tokenHash request ∈ state.log
    → Dead state.tables tokenHash
  rotating : ∀ request tokenHash committed, state.stage request = .rotating tokenHash committed
    → ∀ other, .rotated tokenHash other ∉ state.log
  order : state.log.Pairwise MayFollow

theorem history_initial (h : (oauthEndpoints hashes).initial state)
    : state.History hashes := by
  obtain ⟨-, -, -, -, -, stage, log⟩ := h
  refine ⟨?_, ?_, ?_, ?_, ?_, ?_, ?_, ?_, ?_⟩
  · simp [log]
  · simp [log]
  · simp [stage, RequestStage.redeems]
  · simp [log]
  · simp [stage, RequestStage.closes]
  · simp [log]
  · simp [log]
  · simp [stage]
  · simp [log]

theorem OAuthState.History.tables {tables : OAuthTables} (h : before.History hashes)
    (evolves : before.tables.Evolves tables) (sound : tables.Sound)
    (closed : ∀ tokenHash, before.Closed tokenHash
      → OAuthState.Closed { before with tables } tokenHash)
    : OAuthState.History hashes { before with tables } where
  redeemed exchange request time member :=
    (h.redeemed exchange request time member).later evolves
  redeemer := h.redeemer
  pending := h.pending
  issued exchange request member := by
    obtain ⟨claimed, answered, authCode, verified⟩ := h.issued exchange request member
    exact ⟨claimed, answered, authCode, verified.later evolves⟩
  closing request tokenHash closes := closed tokenHash (h.closing request tokenHash closes)
  revoked tokenHash request member := closed tokenHash (h.revoked tokenHash request member)
  rotated tokenHash request member := (h.rotated tokenHash request member).later evolves sound
  rotating := h.rotating
  order := h.order

section Moves

variable {before : OAuthState} {request : Nat} {act : RequestLabel} {move : Move}

theorem mem_apply {event : OAuthEvent}
    : event ∈ (before.apply request move).log ↔ move.event = some event ∨ event ∈ before.log := by
  simp

theorem OAuthState.History.first_redeemed (h : before.History hashes)
    (basic : before.Basic hashes)
    (moved : requestStep hashes before.tables before.lock request (before.stage request) act
      = some move)
    {exchange : ExchangeRequest} {redeemer : Nat} {time : Int}
    (now : move.event = some (.redeemed exchange redeemer time))
    {earlier : ExchangeRequest} {other : Nat} {at' : Int}
    (member : .redeemed earlier other at' ∈ before.log)
    : exchange.code ≠ earlier.code := by
  intro same
  obtain ⟨rfl, -, ⟨authCode, reads, passes⟩, free, -⟩ := (requestStep_effects moved).explained now
  have knows := basic.knows redeemer
  rw [reads] at knows
  exact (h.redeemed earlier other at' member).not_again same knows (refuseExchange_none passes).2.2.1
    free

theorem OAuthState.History.first_rotated (h : before.History hashes)
    (basic : before.Basic hashes)
    (moved : requestStep hashes before.tables before.lock request (before.stage request) act
      = some move)
    {tokenHash : String} {rotator : Nat}
    (now : move.event = some (.rotated tokenHash rotator))
    : (∀ other, .rotated tokenHash other ∉ before.log)
      ∧ ∀ other, .revoked tokenHash other ∉ before.log := by
  obtain ⟨rfl, committed, draw, rotates, -, -⟩ := (requestStep_effects moved).explained now
  refine ⟨h.rotating rotator tokenHash committed rotates, ?_⟩
  intro other member
  have knows := basic.knows rotator
  rw [rotates] at knows
  have refreshes : RefreshOf before.tables tokenHash committed := knows
  obtain ⟨-, none | ⟨-, quiet⟩⟩ := h.revoked tokenHash other member
  · obtain ⟨stored, found, same⟩ := refreshes.tracked
    exact none stored found (same.tokenHash.symm.trans refreshes.hash)
      (same.tokenType.symm.trans refreshes.isRefresh)
  · exact quiet rotator (by rw [rotates]; rfl)

theorem OAuthState.History.first_issued (h : before.History hashes)
    (moved : requestStep hashes before.tables before.lock request (before.stage request) act
      = some move)
    {exchange : ExchangeRequest} {issuer : Nat} (now : move.event = some (.issued exchange issuer))
    {earlier : ExchangeRequest} {other : Nat} (member : .issued earlier other ∈ before.log)
    : exchange.code ≠ earlier.code := by
  intro same
  obtain ⟨rfl, ⟨authCode, marked, issues⟩, -⟩ := (requestStep_effects moved).explained now
  obtain ⟨⟨time, mine⟩, none⟩ := h.pending issuer exchange (by rw [issues]; rfl)
  obtain ⟨⟨at', theirs⟩, -, -⟩ := h.issued earlier other member
  obtain rfl := h.redeemer exchange issuer time earlier other at' mine theirs same
  exact none earlier member

theorem OAuthState.History.follows (h : before.History hashes) (basic : before.Basic hashes)
    (moved : requestStep hashes before.tables before.lock request (before.stage request) act
      = some move)
    {event earlier : OAuthEvent} (now : move.event = some event) (member : earlier ∈ before.log)
    : MayFollow event earlier := by
  cases event with
  | redeemed => cases earlier <;> trivial
  | revoked => cases earlier <;> trivial
  | issued exchange issuer =>
    cases earlier with
    | issued other another => exact h.first_issued moved now member
    | _ => trivial
  | rotated tokenHash rotator =>
    obtain ⟨noRotation, noRevoke⟩ := h.first_rotated basic moved now
    cases earlier with
    | rotated other another =>
      intro same
      exact noRotation another (same ▸ member)
    | revoked other another =>
      intro same
      exact noRevoke another (same ▸ member)
    | _ => trivial

theorem OAuthState.Basic.closed_of_claim (basic : before.Basic hashes) {tables : OAuthTables}
    (sound : tables.Sound) {tokenHash : String} (presented : tokenHash ∈ tables.presented)
    (claimed : (tables.claims (.refresh tokenHash)).isSome)
    (held : (before.stage request).held = some tokenHash) (stage : RequestStage)
    (quiet : stage.rotates ≠ some tokenHash) (lock : Ledger String Nat) (log : List OAuthEvent)
    : OAuthState.Closed
        { tables, lock, stage := Function.update before.stage request stage, log } tokenHash := by
  refine ⟨presented, Or.inr ⟨sound.spent claimed, ?_⟩⟩
  intro other rotates
  by_cases same : other = request
  · subst same
    exact quiet (by simpa using rotates)
  · have rotating : (before.stage other).rotates = some tokenHash := by
      simpa [same] using rotates
    exact same (basic.holder_unique (RequestStage.held_of_rotates rotating) held)

theorem OAuthState.History.moves (h : before.History hashes) (basic : before.Basic hashes)
    (moved : requestStep hashes before.tables before.lock request (before.stage request) act
      = some move)
    (closed : ∀ tokenHash, before.Closed tokenHash
      → (before.apply request move).Closed tokenHash)
    : (before.apply request move).History hashes := by
  obtain ⟨evolves, sound⟩ := (requestStep_keeps (basic.knows request) moved).1 basic.sound
  have stage_other : ∀ other, other ≠ request
      → (before.apply request move).stage other = before.stage other := by
    intro other different
    simp [different]
  have stage_own : (before.apply request move).stage request = move.stage := by
    simp
  have effects := requestStep_effects moved
  have unanswered : ∀ exchange, .issued exchange request ∉ before.log := by
    intro exchange member
    obtain ⟨-, ⟨answer, answered⟩, -⟩ := h.issued exchange request member
    rw [answered] at moved
    exact requestStep_answered moved
  refine ⟨?_, ?_, ?_, ?_, ?_, ?_, ?_, ?_, ?_⟩
  · intro exchange redeemer time member
    rcases mem_apply.mp member with now | earlier
    · obtain ⟨rfl, rfl, ⟨authCode, reads, -⟩, -, claims⟩ := effects.explained now
      have knows := basic.knows redeemer
      rw [reads] at knows
      obtain ⟨stored, found, same⟩ := knows
      refine ⟨⟨stored, ?_, (basic.sound.codes _ stored found).2⟩, Or.inl ?_⟩
      · exact evolves.hasCode ⟨stored, found, SameCode.refl stored⟩
      · simp [claims, OAuthTables.claim]
    · exact (h.redeemed exchange redeemer time earlier).later evolves
  · intro exchange left time other right later member also same
    rcases mem_apply.mp member with now | earlier
    · rcases mem_apply.mp also with alsoNow | alsoEarlier
      · have events := Option.some.inj (now.symm.trans alsoNow)
        injection events
      · exact absurd same (h.first_redeemed basic moved now alsoEarlier)
    · rcases mem_apply.mp also with alsoNow | alsoEarlier
      · exact absurd same.symm (h.first_redeemed basic moved alsoNow earlier)
      · exact h.redeemer exchange left time other right later earlier alsoEarlier same
  · intro other exchange redeems
    by_cases same : other = request
    · subst same
      rw [stage_own] at redeems
      rcases effects.redeems redeems with ⟨before', silent⟩ | now
      · obtain ⟨⟨time, member⟩, none⟩ := h.pending other exchange before'
        refine ⟨⟨time, mem_apply.mpr (Or.inr member)⟩, ?_⟩
        intro another issued
        rcases mem_apply.mp issued with now | earlier
        · rw [silent] at now
          cases now
        · exact none another earlier
      · refine ⟨⟨_, mem_apply.mpr (Or.inl now)⟩, ?_⟩
        intro another issued
        rcases mem_apply.mp issued with also | earlier
        · rw [now] at also
          cases also
        · exact unanswered another earlier
    · rw [stage_other other same] at redeems
      obtain ⟨⟨time, member⟩, none⟩ := h.pending other exchange redeems
      refine ⟨⟨time, mem_apply.mpr (Or.inr member)⟩, ?_⟩
      intro another issued
      rcases mem_apply.mp issued with now | earlier
      · exact same (effects.explained now).1
      · exact none another earlier
  · intro exchange issuer member
    rcases mem_apply.mp member with now | earlier
    · obtain ⟨rfl, ⟨authCode, marked, issues⟩, answered⟩ := effects.explained now
      obtain ⟨⟨time, claimed⟩, -⟩ := h.pending issuer exchange (by rw [issues]; rfl)
      have knows := basic.knows issuer
      rw [issues] at knows
      refine ⟨⟨time, mem_apply.mpr (Or.inr claimed)⟩, ?_, authCode, knows.later evolves⟩
      rw [stage_own]
      exact answered
    · obtain ⟨⟨time, claimed⟩, answered, authCode, verified⟩ := h.issued exchange issuer earlier
      have different : issuer ≠ request := by
        rintro rfl
        exact unanswered exchange earlier
      rw [stage_other issuer different]
      exact ⟨⟨time, mem_apply.mpr (Or.inr claimed)⟩, answered, authCode, verified.later evolves⟩
  · intro other tokenHash closes
    by_cases same : other = request
    · subst same
      rw [stage_own] at closes
      rcases effects.closes closes with already | ⟨searches, none⟩ |
        ⟨row, rest, staged, locked, claimed⟩
      · exact closed tokenHash (h.closing other tokenHash already)
      · have knows := basic.knows other
        rw [searches] at knows
        exact closed tokenHash ⟨knows, Or.inl none⟩
      · have knows := basic.knows other
        rw [locked] at knows
        apply basic.closed_of_claim sound (evolves.presented _ knows.presented) claimed
        · rw [locked]
          rfl
        · intro rotates
          cases stage : move.stage <;> rw [stage] at closes rotates <;> cases rotates <;>
            cases closes
    · rw [stage_other other same] at closes
      exact closed tokenHash (h.closing other tokenHash closes)
  · intro tokenHash revoker member
    rcases mem_apply.mp member with now | earlier
    · obtain ⟨rfl, closes⟩ := effects.explained now
      exact closed tokenHash (h.closing revoker tokenHash closes)
    · exact closed tokenHash (h.revoked tokenHash revoker earlier)
  · intro tokenHash rotator member
    rcases mem_apply.mp member with now | earlier
    · obtain ⟨rfl, committed, draw, rotates, ok, written⟩ := effects.explained now
      have knows := basic.knows rotator
      rw [rotates] at knows
      have refreshes : RefreshOf before.tables tokenHash committed := knows
      refine ⟨evolves.presented _ refreshes.presented, ?_⟩
      have revoked := OAuthTables.revoked_rotationRows (Draw.new_of_ok ok) refreshes.tracked
        basic.sound
      rw [← written, refreshes.hash] at revoked
      exact revoked
    · exact (h.rotated tokenHash rotator earlier).later evolves sound
  · intro other tokenHash committed rotating another member
    by_cases same : other = request
    · subst same
      rw [stage_own] at rotating
      obtain ⟨silent, current, sameHash, unrevoked⟩ := effects.rotating rotating
      rcases mem_apply.mp member with now | earlier
      · rw [silent] at now
        cases now
      · have revoked := (h.rotated tokenHash another earlier).2 committed current sameHash
        rw [unrevoked] at revoked
        cases revoked
    · rw [stage_other other same] at rotating
      rcases mem_apply.mp member with now | earlier
      · obtain ⟨rfl, mine, draw, rotates, -, -⟩ := effects.explained now
        exact same (basic.holder_unique (by rw [rotating]; rfl) (by rw [rotates]; rfl))
      · exact h.rotating other tokenHash committed rotating another earlier
  · change (move.event.toList ++ before.log).Pairwise MayFollow
    cases now : move.event with
    | none => exact h.order
    | some event =>
      exact List.pairwise_cons.mpr
        ⟨fun earlier member => h.follows basic moved now member, h.order⟩

end Moves

theorem OAuthState.History.next (h : before.History hashes) (basic : before.Basic hashes)
    (prompt : ClaimsPromptly before label) (taken : oauthStep hashes before label = some after)
    : after.History hashes := by
  have closed : ∀ tokenHash, before.Closed tokenHash → after.Closed tokenHash :=
    fun tokenHash closes => closes.next basic prompt taken
  rcases oauthStep_cases taken with ⟨tables, advances, rfl⟩ | ⟨request, act, move, -, moved, rfl⟩
  · obtain ⟨evolves, sound⟩ := advances basic.sound
    exact h.tables evolves sound closed
  · exact h.moves basic moved closed

theorem oauth_invariant (h : (oauthEndpoints hashes).ReachableUnder ClaimsPromptly state)
    : state.Basic hashes ∧ state.History hashes := by
  have initially : ∀ start, (oauthEndpoints hashes).initial start
      → start.Basic hashes ∧ start.History hashes :=
    fun _ initial => ⟨basic_initial initial, history_initial initial⟩
  have kept : ∀ before label after, before.Basic hashes ∧ before.History hashes
      → ClaimsPromptly before label → (oauthEndpoints hashes).step before label = some after
      → after.Basic hashes ∧ after.History hashes :=
    fun _ _ _ holds prompt taken =>
      ⟨holds.1.next taken, holds.2.next holds.1 prompt taken⟩
  exact h.invariant initially kept

end Flair.OAuth
