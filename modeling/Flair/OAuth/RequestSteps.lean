import Flair.OAuth.TokenTables

/-! What one step of a request keeps: sound tables, what the request knows of them, and the
lock it holds.
-/

namespace Flair.OAuth

open Dynamic KeyLedger

-- What a request knows

structure RefreshOf (tables : OAuthTables) (tokenHash : String) (row : TokenRow) : Prop where
  presented : tokenHash ∈ tables.presented
  tracked : tables.Tracks row
  hash : row.tokenHash = tokenHash
  isRefresh : row.tokenType = .refresh

structure RevokesOf (tables : OAuthTables) (tokenHash : String) (rest staged : List TokenRow)
    : Prop where
  presented : tokenHash ∈ tables.presented
  rest : ∀ row ∈ rest, tables.Tracks row ∧ row.tokenHash = tokenHash
  staged : ∀ row ∈ staged, tables.Tracks row ∧ row.revokedAt.isSome

structure Verified (hashes : OAuthHashes) (tables : OAuthTables) (exchange : ExchangeRequest)
    (authCode : AuthCodeRow)
    : Prop where
  stored : tables.HasCode exchange.code authCode
  client : authCode.clientId = exchange.clientId
  challenge : text authCode.codeChallenge = hashes.s256 (text exchange.codeVerifier)

def Knows (hashes : OAuthHashes) (tables : OAuthTables) : RequestStage → Prop
  | .idle | .exchanging _ | .answered _ => True
  | .codeRead exchange authCode => tables.HasCode exchange.code authCode
  | .redeeming exchange authCode | .issuing exchange authCode _ =>
    Verified hashes tables exchange authCode
  | .refreshing tokenHash _ | .searching tokenHash => tokenHash ∈ tables.presented
  | .awaitingLock tokenHash row checkedAt | .rotationLocked tokenHash row checkedAt =>
    RefreshOf tables tokenHash row ∧ checkedAt ≤ row.expiresAt
  | .rotationClaimed tokenHash row | .rotating tokenHash row => RefreshOf tables tokenHash row
  | .revoking tokenHash rest staged => RevokesOf tables tokenHash rest staged
  | .revokeLocked tokenHash row rest staged | .revokeClaimed tokenHash row rest staged =>
    RevokesOf tables tokenHash (row :: rest) staged
  | .returning tokenHash _ staged => RevokesOf tables tokenHash [] staged

section Knowledge

variable {hashes : OAuthHashes} {before after tables : OAuthTables}

variable {tokenHash : String}

theorem RefreshOf.later {row : TokenRow} (h : RefreshOf before tokenHash row)
    (evolves : before.Evolves after)
    : RefreshOf after tokenHash row :=
  ⟨evolves.presented _ h.presented, evolves.tracks h.tracked, h.hash, h.isRefresh⟩

theorem RevokesOf.later {rest staged : List TokenRow} (h : RevokesOf before tokenHash rest staged)
    (evolves : before.Evolves after)
    : RevokesOf after tokenHash rest staged where
  presented := evolves.presented _ h.presented
  rest row member := ⟨evolves.tracks (h.rest row member).1, (h.rest row member).2⟩
  staged row member := ⟨evolves.tracks (h.staged row member).1, (h.staged row member).2⟩

theorem Verified.later {exchange : ExchangeRequest} {authCode : AuthCodeRow}
    (h : Verified hashes before exchange authCode) (evolves : before.Evolves after)
    : Verified hashes after exchange authCode :=
  ⟨evolves.hasCode h.stored, h.client, h.challenge⟩

theorem Knows.later {stage : RequestStage} (h : Knows hashes before stage)
    (evolves : before.Evolves after)
    : Knows hashes after stage := by
  cases stage with
  | idle => trivial
  | exchanging => trivial
  | answered => trivial
  | codeRead => exact evolves.hasCode h
  | redeeming => exact Verified.later h evolves
  | issuing => exact Verified.later h evolves
  | refreshing => exact evolves.presented _ h
  | searching => exact evolves.presented _ h
  | awaitingLock => exact ⟨h.1.later evolves, h.2⟩
  | rotationLocked => exact ⟨h.1.later evolves, h.2⟩
  | rotationClaimed => exact RefreshOf.later h evolves
  | rotating => exact RefreshOf.later h evolves
  | revoking => exact RevokesOf.later h evolves
  | revokeLocked => exact RevokesOf.later h evolves
  | revokeClaimed => exact RevokesOf.later h evolves
  | returning => exact RevokesOf.later h evolves

-- One step

def Keeps (hashes : OAuthHashes) (tables : OAuthTables) (move : Move) : Prop :=
  tables.Advances move.tables ∧ (tables.Sound → Knows hashes move.tables move.stage)

variable {lock : Ledger String Nat} {request : Nat} {stage : RequestStage} {move : Move}

theorem keeps_goto (knows : tables.Sound → Knows hashes tables stage)
    : Keeps hashes tables (.goto tables lock stage) :=
  ⟨OAuthTables.Advances.refl tables, knows⟩

theorem keeps_answered (advances : before.Advances after) (answer : OAuthAnswer)
    : Keeps hashes before (.goto after lock (.answered answer)) :=
  ⟨advances, fun _ => trivial⟩

theorem exchangeStep_keeps {exchange : ExchangeRequest}
    (h : exchangeStep tables lock exchange stage = some move)
    : Keeps hashes tables move := by
  unfold exchangeStep at h
  split at h
  · split at h
    · cases h
      exact keeps_goto (fun _ => trivial)
    · cases h
      exact keeps_goto (fun _ => trivial)
  · cases h

theorem readCodeStep_keeps (h : readCodeStep tables lock stage = some move)
    : Keeps hashes tables move := by
  unfold readCodeStep at h
  split at h
  · split at h
    · cases h
      exact keeps_goto (fun _ => trivial)
    · rename_i authCode stored
      cases h
      exact keeps_goto (fun _ => ⟨authCode, stored, SameCode.refl authCode⟩)
  · cases h

variable {choice : ClaimChoice}

theorem redeemStep_keeps (knows : Knows hashes tables stage)
    (h : redeemStep hashes tables lock request choice stage = some move)
    : Keeps hashes tables move := by
  unfold redeemStep at h
  split at h
  · rename_i exchange authCode
    split at h
    · cases h
      exact keeps_goto (fun _ => trivial)
    rename_i passes
    obtain ⟨-, client, -, challenge, -⟩ := refuseExchange_none passes
    generalize claimEq : claimOAuthSingleUse tables
      (.code (hashes.sha256 exchange.code)) choice = outcome at h
    obtain ⟨claimed, answer⟩ := outcome
    have advances := OAuthTables.advances_claimOAuthSingleUse claimEq
      (fun _ other => by cases other)
    cases answer with
    | unavailable =>
      cases h
      exact keeps_answered advances _
    | replay =>
      cases h
      exact keeps_answered advances _
    | recorded =>
      cases h
      refine ⟨advances, ?_⟩
      intro sound
      exact ⟨(advances sound).1.hasCode knows, client, challenge⟩
  · cases h

theorem markUsedStep_keeps {choice : WriteChoice} (knows : Knows hashes tables stage)
    (h : markUsedStep tables lock choice stage = some move)
    : Keeps hashes tables move := by
  unfold markUsedStep at h
  split at h
  · cases choice with
    | joins =>
      cases h
      exact keeps_goto (fun _ => knows)
    | commits =>
      cases h
      have advances := OAuthTables.advances_markUsed knows.stored
      exact ⟨advances, fun sound => knows.later (advances sound).1⟩
  · cases h

variable {draw : Draw}

theorem Draw.New.markUsed (new : Draw.New hashes tables draw) (authCode : AuthCodeRow)
    : Draw.New hashes (tables.markUsed authCode) draw :=
  ⟨new.ids, new.tokens, new.access, new.refresh, new.accessUnknown, new.refreshUnknown,
    new.stamped⟩

theorem issueStep_keeps {choice : IssueChoice} (knows : Knows hashes tables stage)
    (h : issueStep hashes tables lock request draw choice stage = some move)
    : Keeps hashes tables move := by
  unfold issueStep at h
  split at h
  · rename_i exchange authCode marked
    split at h
    · rename_i ok
      have new := Draw.new_of_ok ok
      have marks : tables.Advances (tables.markUsed authCode) :=
        OAuthTables.advances_markUsed knows.stored
      have both : ∀ stored, tables.Advances ((tables.markUsed authCode).putAll
          ((pairRows hashes draw authCode.clientId authCode.principalId authCode.scope).take
            stored)) := by
        intro stored
        exact marks.trans (OAuthTables.advances_pairRows (new.markUsed authCode) _ _ _ stored)
      have alone := OAuthTables.advances_pairRows new authCode.clientId authCode.principalId
        authCode.scope
      cases choice with
      | commits =>
        cases h
        refine ⟨?_, fun _ => trivial⟩
        cases marked with
        | true => exact alone 2
        | false => exact both 2
      | throws landed stored =>
        cases h
        refine ⟨?_, fun _ => trivial⟩
        cases landed with
        | true => exact both stored
        | false => exact alone stored
    · cases h
  · cases h

theorem rotateStep_keeps {refreshToken clientId : String}
    (h : rotateStep hashes tables lock refreshToken clientId stage = some move)
    : Keeps hashes tables move := by
  unfold rotateStep at h
  split at h
  · split at h
    · cases h
      exact keeps_goto (fun _ => trivial)
    · cases h
      exact ⟨OAuthTables.advances_present _, fun _ => List.mem_cons_self⟩
  · cases h

theorem findRefreshStep_keeps (knows : Knows hashes tables stage)
    (h : findRefreshStep tables lock stage = some move)
    : Keeps hashes tables move := by
  unfold findRefreshStep at h
  split at h
  · split at h
    · cases h
      exact keeps_goto (fun _ => trivial)
    rename_i row found
    have member := List.mem_of_find?_eq_some found
    have matches' := List.find?_some found
    simp only [decide_eq_true_eq] at matches'
    split at h
    · cases h
      exact keeps_goto (fun _ => trivial)
    rename_i passes
    cases h
    apply keeps_goto
    intro _
    exact ⟨⟨knows, ⟨row, member, SameToken.refl row⟩, matches'.1, matches'.2⟩,
      (refuseRotation_none passes).2⟩
  · cases h

theorem withTokenLifecycleLock_keeps {locked : RequestStage} {refused : OAuthAnswer → RequestStage}
    {choice : LockChoice} (knowsLocked : Knows hashes tables locked)
    (knowsRefused : ∀ answer, Knows hashes tables (refused answer))
    (h : withTokenLifecycleLock tables lock request tokenHash locked refused choice = some move)
    : Keeps hashes tables move := by
  cases choice with
  | taken =>
    obtain ⟨next, -, rfl⟩ := Option.map_eq_some_iff.mp h
    exact keeps_goto (fun _ => knowsLocked)
  | busy =>
    simp only [withTokenLifecycleLock, Option.ite_none_right_eq_some, Option.some.injEq] at h
    obtain ⟨-, rfl⟩ := h
    exact keeps_goto (fun _ => knowsRefused _)
  | unavailable =>
    cases h
    exact keeps_goto (fun _ => knowsRefused _)

theorem lockRotationStep_keeps {choice : LockChoice} (knows : Knows hashes tables stage)
    (h : lockRotationStep tables lock request choice stage = some move)
    : Keeps hashes tables move := by
  unfold lockRotationStep at h
  split at h
  · refine withTokenLifecycleLock_keeps ?_ ?_ h
    · exact knows
    · exact fun _ => trivial
  · cases h

theorem claimRotationStep_keeps (knows : Knows hashes tables stage)
    (h : claimRotationStep tables lock request choice stage = some move)
    : Keeps hashes tables move := by
  unfold claimRotationStep at h
  split at h
  · rename_i tokenHash row checkedAt
    generalize claimEq : claimOAuthSingleUse tables (.refresh tokenHash) choice = outcome at h
    obtain ⟨claimed, answer⟩ := outcome
    have advances := OAuthTables.advances_claimOAuthSingleUse claimEq (by
      intro other same
      obtain rfl := SingleUseKey.refresh.inj same
      exact knows.1.presented)
    cases answer with
    | unavailable =>
      cases h
      exact keeps_answered advances _
    | replay =>
      cases h
      exact keeps_answered advances _
    | recorded =>
      cases h
      exact ⟨advances, fun sound => knows.1.later (advances sound).1⟩
  · cases h

theorem rereadRowStep_keeps (knows : Knows hashes tables stage)
    (h : rereadRowStep tables lock request stage = some move)
    : Keeps hashes tables move := by
  unfold rereadRowStep at h
  split at h
  · rename_i tokenHash row
    split at h
    · cases h
      exact keeps_goto (fun _ => trivial)
    rename_i committed found
    have member := List.mem_of_find?_eq_some found
    split at h
    · cases h
      exact keeps_goto (fun _ => trivial)
    rename_i current
    have sameHash : committed.tokenHash = tokenHash := by
      by_contra other
      exact current (Or.inl other)
    cases h
    apply keeps_goto
    intro sound
    have tracked : tables.Tracks committed := ⟨committed, member, SameToken.refl committed⟩
    have version := sound.sameToken tracked knows.tracked (sameHash.trans knows.hash.symm)
    exact ⟨knows.presented, tracked, sameHash, version.tokenType.trans knows.isRefresh⟩
  · cases h

theorem commitRotationStep_keeps {choice : IssueChoice} (knows : Knows hashes tables stage)
    (h : commitRotationStep hashes tables lock request draw choice stage = some move)
    : Keeps hashes tables move := by
  unfold commitRotationStep at h
  split at h
  · rename_i tokenHash committed
    split at h
    · rename_i ok
      have advances :=
        OAuthTables.advances_rotationRows (Draw.new_of_ok ok) (RefreshOf.tracked knows)
      cases choice with
      | commits =>
        cases h
        exact ⟨advances, fun _ => trivial⟩
      | throws landed _ =>
        cases h
        cases landed with
        | true => exact keeps_answered advances _
        | false => exact keeps_goto (fun _ => trivial)
    · cases h
  · cases h

theorem revokeStep_keeps {token : String}
    (h : revokeStep hashes tables lock token stage = some move)
    : Keeps hashes tables move := by
  unfold revokeStep at h
  split at h
  · split at h
    · cases h
      exact keeps_goto (fun _ => trivial)
    · cases h
      exact ⟨OAuthTables.advances_present _, fun _ => List.mem_cons_self⟩
  · cases h

theorem findTokensStep_keeps (knows : Knows hashes tables stage)
    (h : findTokensStep tables lock stage = some move)
    : Keeps hashes tables move := by
  unfold findTokensStep at h
  split at h
  · cases h
    apply keeps_goto
    intro _
    refine ⟨knows, ?_, by simp⟩
    intro row member
    obtain ⟨found, sameHash⟩ := List.mem_filter.mp member
    exact ⟨⟨row, found, SameToken.refl row⟩, by simpa using sameHash⟩
  · cases h

theorem lockRevokeStep_keeps {choice : LockChoice} (knows : Knows hashes tables stage)
    (h : lockRevokeStep tables lock request choice stage = some move)
    : Keeps hashes tables move := by
  unfold lockRevokeStep at h
  split at h
  · split at h
    · refine withTokenLifecycleLock_keeps ?_ ?_ h
      · exact knows
      · intro _
        exact ⟨RevokesOf.presented knows, by simp, RevokesOf.staged knows⟩
    · cases h
  · cases h

theorem claimRevokeStep_keeps (knows : Knows hashes tables stage)
    (h : claimRevokeStep tables lock request choice stage = some move)
    : Keeps hashes tables move := by
  unfold claimRevokeStep at h
  split at h
  · rename_i tokenHash row rest staged
    generalize claimEq : claimOAuthSingleUse tables (.refresh tokenHash) choice = outcome at h
    obtain ⟨claimed, answer⟩ := outcome
    have revokes : RevokesOf tables tokenHash (row :: rest) staged := knows
    have advances := OAuthTables.advances_claimOAuthSingleUse claimEq (by
      intro other same
      obtain rfl := SingleUseKey.refresh.inj same
      exact revokes.presented)
    have goesOn : tables.Sound → RevokesOf claimed tokenHash (row :: rest) staged :=
      fun sound => revokes.later (advances sound).1
    cases answer with
    | unavailable =>
      cases h
      exact ⟨advances, fun sound => ⟨(goesOn sound).presented, by simp, (goesOn sound).staged⟩⟩
    | replay =>
      cases h
      exact ⟨advances, goesOn⟩
    | recorded =>
      cases h
      exact ⟨advances, goesOn⟩
  · cases h

theorem putRevoked_keeps {row : TokenRow} {rest staged : List TokenRow}
    (revokes : RevokesOf tables tokenHash (row :: rest) staged) (now : Int) (choice : WriteChoice)
    : Keeps hashes tables (putRevoked tables lock tokenHash row rest staged now choice) := by
  obtain ⟨tracked, -⟩ := revokes.rest row List.mem_cons_self
  have versions : tables.Tracks { row with revokedAt := some now } := by
    obtain ⟨stored, found, same⟩ := tracked
    exact ⟨stored, found, same.id, same.tokenHash, same.tokenType, same.expiresAt⟩
  have left : RevokesOf tables tokenHash rest staged :=
    ⟨revokes.presented, fun other member => revokes.rest other (List.mem_cons_of_mem _ member),
      revokes.staged⟩
  cases choice with
  | joins =>
    apply keeps_goto
    intro _
    refine ⟨left.presented, left.rest, ?_⟩
    intro other member
    rcases List.mem_cons.mp member with rfl | before
    · exact ⟨versions, rfl⟩
    · exact left.staged other before
  | commits =>
    have advances := OAuthTables.advances_put versions rfl
    exact ⟨advances, fun sound => left.later (advances sound).1⟩

theorem putRevokedStep_keeps {now : Int} {choice : WriteChoice}
    (knows : Knows hashes tables stage)
    (h : putRevokedStep tables lock request now choice stage = some move)
    : Keeps hashes tables move := by
  unfold putRevokedStep at h
  split at h
  · cases h
    exact putRevoked_keeps knows now choice
  · split at h
    · cases h
      exact putRevoked_keeps knows now choice
    · cases h
  · cases h

theorem endRevokeStep_keeps (knows : Knows hashes tables stage)
    (h : endRevokeStep tables lock stage = some move)
    : Keeps hashes tables move := by
  unfold endRevokeStep at h
  split at h
  · cases h
    exact keeps_goto (fun _ => knows)
  · cases h

theorem finishStep_keeps (knows : Knows hashes tables stage)
    (h : finishStep tables lock request stage = some move)
    : Keeps hashes tables move := by
  unfold finishStep at h
  split at h
  · cases h
    refine ⟨?_, fun _ => trivial⟩
    exact OAuthTables.advances_putAll (fun row member => (RevokesOf.staged knows row member).1)
      (fun row member => (RevokesOf.staged knows row member).2)
  · cases h

theorem throwStep_keeps (h : throwStep tables lock request stage = some move)
    : Keeps hashes tables move := by
  unfold throwStep at h
  split at h
  · cases h
  · cases h
  · cases h
    exact keeps_goto (fun _ => trivial)

theorem requestStep_keeps {label : RequestLabel} (knows : Knows hashes tables stage)
    (h : requestStep hashes tables lock request stage label = some move)
    : Keeps hashes tables move := by
  cases label with
  | exchange => exact exchangeStep_keeps h
  | readCode => exact readCodeStep_keeps h
  | redeem => exact redeemStep_keeps knows h
  | markUsed => exact markUsedStep_keeps knows h
  | issue => exact issueStep_keeps knows h
  | rotate => exact rotateStep_keeps h
  | findRefresh => exact findRefreshStep_keeps knows h
  | lockRotation => exact lockRotationStep_keeps knows h
  | claimRotation => exact claimRotationStep_keeps knows h
  | rereadRow => exact rereadRowStep_keeps knows h
  | commitRotation => exact commitRotationStep_keeps knows h
  | revoke => exact revokeStep_keeps h
  | findTokens => exact findTokensStep_keeps knows h
  | lockRevoke => exact lockRevokeStep_keeps knows h
  | claimRevoke => exact claimRevokeStep_keeps knows h
  | putRevoked => exact putRevokedStep_keeps knows h
  | endRevoke => exact endRevokeStep_keeps knows h
  | finish => exact finishStep_keeps knows h
  | throws => exact throwStep_keeps h

end Knowledge

-- Locks and events of one step

namespace RequestStage

def rotates : RequestStage → Option String
  | .rotationClaimed tokenHash _ | .rotating tokenHash _ => some tokenHash
  | _ => none

def redeems : RequestStage → Option ExchangeRequest
  | .redeeming exchange _ | .issuing exchange _ _ => some exchange
  | _ => none

def closes : RequestStage → Option String
  | .revoking tokenHash rest _ =>
    if rest.any (fun row => row.tokenType = .refresh) then none else some tokenHash
  | .revokeClaimed tokenHash _ _ _ => some tokenHash
  | .returning tokenHash answer _ => if answer = .revoked then some tokenHash else none
  | _ => none

end RequestStage

section Effects

variable {hashes : OAuthHashes} {tables : OAuthTables} {lock : Ledger String Nat}
  {request : Nat} {stage : RequestStage} {move : Move} {label : RequestLabel}

theorem claimOAuthSingleUse_cases {key : SingleUseKey} {choice : ClaimChoice}
    {claimed : OAuthTables} {answer : ReplayClaim}
    (h : claimOAuthSingleUse tables key choice = (claimed, answer))
    : (answer = .recorded → tables.claims key = none ∧ claimed = tables.claim key)
      ∧ (answer ≠ .unavailable → (claimed.claims key).isSome) := by
  cases choice with
  | decided =>
    simp only [claimOAuthSingleUse] at h
    split at h
    · rename_i recorded
      obtain ⟨rfl, rfl⟩ := Prod.mk.inj h
      exact ⟨fun other => (by cases other), fun _ => recorded⟩
    · rename_i free
      obtain ⟨rfl, rfl⟩ := Prod.mk.inj h
      exact ⟨fun _ => ⟨by simpa using free, rfl⟩, fun _ => by simp [OAuthTables.claim]⟩
  | failed written =>
    simp only [claimOAuthSingleUse] at h
    split at h
    · obtain ⟨rfl, rfl⟩ := Prod.mk.inj h
      exact ⟨fun other => (by cases other), fun other => absurd rfl other⟩
    · obtain ⟨rfl, rfl⟩ := Prod.mk.inj h
      exact ⟨fun other => (by cases other), fun other => absurd rfl other⟩

variable {tokenHash : String}

theorem withTokenLifecycleLock_some {locked : RequestStage} {refused : OAuthAnswer → RequestStage}
    {choice : LockChoice}
    (h : withTokenLifecycleLock tables lock request tokenHash locked refused choice = some move)
    : (∃ next, lock.tryLock request tokenHash = some next ∧ move = .goto tables next locked)
      ∨ ∃ answer, answer ≠ .revoked ∧ move = .goto tables lock (refused answer) := by
  cases choice with
  | taken =>
    obtain ⟨next, taken, rfl⟩ := Option.map_eq_some_iff.mp h
    exact Or.inl ⟨next, taken, rfl⟩
  | busy =>
    simp only [withTokenLifecycleLock, Option.ite_none_right_eq_some, Option.some.injEq] at h
    exact Or.inr ⟨tokenLifecycleBusy, by decide, h.2.symm⟩
  | unavailable =>
    cases h
    exact Or.inr ⟨storeUnavailable, by decide, rfl⟩

section PutRevoked

variable (tokenHash : String) (row : TokenRow) (rest staged : List TokenRow) (now : Int)
  (choice : WriteChoice)

@[grind =] theorem putRevoked_lock
    : (putRevoked tables lock tokenHash row rest staged now choice).lock = lock := by
  cases choice <;> rfl

@[grind =] theorem putRevoked_event
    : (putRevoked tables lock tokenHash row rest staged now choice).event = none := by
  cases choice <;> rfl

@[grind =] theorem putRevoked_stage
    : (putRevoked tables lock tokenHash row rest staged now choice).stage
      = .revoking tokenHash rest (match choice with
          | .joins => { row with revokedAt := some now } :: staged
          | .commits => staged) := by
  cases choice <;> rfl

end PutRevoked

def Explained (hashes : OAuthHashes) (tables : OAuthTables) (request : Nat)
    (stage : RequestStage) (move : Move)
    : OAuthEvent → Prop
  | .redeemed exchange redeemer time =>
    redeemer = request ∧ time = tables.clock
      ∧ (∃ authCode, stage = .codeRead exchange authCode
        ∧ refuseExchange hashes tables.clock authCode exchange = none)
      ∧ tables.claims (.code (hashes.sha256 exchange.code)) = none
      ∧ move.tables = tables.claim (.code (hashes.sha256 exchange.code))
  | .issued exchange issuer =>
    issuer = request ∧ (∃ authCode marked, stage = .issuing exchange authCode marked)
      ∧ ∃ answer, move.stage = .answered answer
  | .rotated tokenHash rotator =>
    rotator = request
      ∧ ∃ committed draw, stage = .rotating tokenHash committed
        ∧ draw.ok hashes tables = true
        ∧ move.tables = tables.putAll (rotationRows hashes draw committed)
  | .revoked tokenHash revoker => revoker = request ∧ stage.closes = some tokenHash

/-- What one step can do to the lock and the stages that rest on a claim, and what its event
tells.
-/
structure StepEffects (hashes : OAuthHashes) (tables : OAuthTables) (lock : Ledger String Nat)
    (request : Nat) (stage : RequestStage) (label : RequestLabel) (move : Move)
    : Prop where
  locks : lock.Moves move.lock request stage.held move.stage.held
  rotates :
    ∀ {tokenHash}, move.stage.rotates = some tokenHash
      → stage.rotates = some tokenHash
        ∨ ∃ row checkedAt choice, stage = .rotationLocked tokenHash row checkedAt
          ∧ label = .claimRotation choice ∧ tables.claims (.refresh tokenHash) = none
  redeems :
    ∀ {exchange}, move.stage.redeems = some exchange
      → stage.redeems = some exchange ∧ move.event = none
        ∨ move.event = some (.redeemed exchange request tables.clock)
  closes :
    ∀ {tokenHash}, move.stage.closes = some tokenHash
      → stage.closes = some tokenHash
        ∨ (stage = .searching tokenHash
          ∧ ∀ row ∈ tables.tokens, row.tokenHash = tokenHash → row.tokenType ≠ .refresh)
        ∨ ∃ row rest staged, stage = .revokeLocked tokenHash row rest staged
          ∧ (move.tables.claims (.refresh tokenHash)).isSome
  explained : ∀ {event}, move.event = some event → Explained hashes tables request stage move event
  rotating :
    ∀ {tokenHash committed}, move.stage = .rotating tokenHash committed
      → move.event = none ∧ committed ∈ tables.tokens ∧ committed.tokenHash = tokenHash
        ∧ committed.revokedAt = none

theorem requestStep_effects
    (h : requestStep hashes tables lock request stage label = some move)
    : StepEffects hashes tables lock request stage label move := by
  cases label with
  | redeem choice =>
    simp only [requestStep, redeemStep] at h
    split at h
    · rename_i exchange authCode
      generalize claimEq : claimOAuthSingleUse tables (.code (hashes.sha256 exchange.code))
        choice = outcome at h
      obtain ⟨claimed, answer⟩ := outcome
      have free := (claimOAuthSingleUse_cases claimEq).1
      constructor <;> grind [Move.goto, RequestStage.held, RequestStage.rotates,
        RequestStage.redeems, RequestStage.closes, Ledger.Moves, Explained]
    · cases h
  | claimRotation choice =>
    simp only [requestStep, claimRotationStep] at h
    split at h
    · rename_i key row checkedAt
      generalize claimEq : claimOAuthSingleUse tables (.refresh key) choice = outcome at h
      obtain ⟨claimed, answer⟩ := outcome
      have recorded := (claimOAuthSingleUse_cases claimEq).1
      constructor <;> grind [Move.goto, RequestStage.held, RequestStage.rotates,
        RequestStage.redeems, RequestStage.closes, Ledger.Moves]
    · cases h
  | claimRevoke choice =>
    simp only [requestStep, claimRevokeStep] at h
    split at h
    · rename_i key row rest staged
      generalize claimEq : claimOAuthSingleUse tables (.refresh key) choice = outcome at h
      obtain ⟨claimed, answer⟩ := outcome
      have claims := (claimOAuthSingleUse_cases claimEq).2
      constructor <;> grind [Move.goto, RequestStage.held, RequestStage.rotates,
        RequestStage.redeems, RequestStage.closes, Ledger.Moves, storeUnavailable]
    · cases h
  | _ =>
    simp only [requestStep, exchangeStep, readCodeStep, markUsedStep, issueStep, rotateStep,
      findRefreshStep, lockRotationStep, rereadRowStep, commitRotationStep, revokeStep,
      findTokensStep, lockRevokeStep, putRevokedStep, endRevokeStep, finishStep, throwStep] at h
    exact {
      locks := by grind [Move.goto, RequestStage.held, Ledger.Moves, withTokenLifecycleLock_some]
      rotates := by grind [Move.goto, RequestStage.rotates, withTokenLifecycleLock_some]
      redeems := by grind [Move.goto, RequestStage.redeems, withTokenLifecycleLock_some]
      closes := by grind [Move.goto, RequestStage.closes, withTokenLifecycleLock_some]
      explained := by
        grind [Move.goto, Explained, RequestStage.closes, withTokenLifecycleLock_some]
      rotating := by
        grind [Move.goto, withTokenLifecycleLock_some, List.mem_of_find?_eq_some,
          Option.not_isSome_iff_eq_none] }

theorem requestStep_answered {answer : OAuthAnswer}
    (h : requestStep hashes tables lock request (.answered answer) label = some move)
    : False := by
  cases label <;> cases h

end Effects

end Flair.OAuth
