import Flair.OAuth.SingleUse

/-! A refused exchange leaves its code redeemable, and the endpoints' guarantee over every run,
with the run that breaks it when a rotation stalls for days before its claim.
-/

namespace Flair.OAuth

open Dynamic KeyLedger Transition

-- Redeemable codes

structure Redeemable (hashes : OAuthHashes) (tables : OAuthTables) (authCode : AuthCodeRow)
    : Prop where
  stored : tables.codes authCode.id = some authCode
  unused : authCode.used = false
  current : tables.clock ≤ authCode.expiresAt
  challenged : text authCode.codeChallenge ≠ ""
  method : authCode.codeChallengeMethod = some (.str "S256")
  unclaimed : tables.claims (.code (hashes.sha256 authCode.id)) = none

structure ByRightClient (hashes : OAuthHashes) (authCode : AuthCodeRow)
    (exchange : ExchangeRequest)
    : Prop where
  code : exchange.code = authCode.id
  client : exchange.clientId = authCode.clientId
  named : exchange.code ≠ "" ∧ exchange.clientId ≠ ""
  redirect : exchange.redirectUri = "" ∨ exchange.redirectUri = authCode.redirectUri
  verifier : text exchange.codeVerifier ≠ ""
  verified : hashes.s256 (text exchange.codeVerifier) = text authCode.codeChallenge

variable {hashes : OAuthHashes} {authCode : AuthCodeRow} {exchange : ExchangeRequest}

theorem refuseExchange_rightClient {now : Int} (unused : authCode.used = false)
    (current : now ≤ authCode.expiresAt) (challenged : text authCode.codeChallenge ≠ "")
    (method : authCode.codeChallengeMethod = some (.str "S256"))
    (right : ByRightClient hashes authCode exchange)
    : refuseExchange hashes now authCode exchange = none := by
  have client : ¬ authCode.clientId ≠ exchange.clientId := not_not.mpr right.client.symm
  have redirect : ¬ (exchange.redirectUri ≠ "" ∧ authCode.redirectUri ≠ exchange.redirectUri) := by
    rcases right.redirect with absent | same
    · exact fun other => other.1 absent
    · exact fun other => other.2 same.symm
  have pkce : ¬ (text authCode.codeChallenge = ""
      ∨ authCode.codeChallengeMethod ≠ some (.str "S256")) := by
    rintro (absent | other)
    · exact challenged absent
    · exact other method
  have verified : ¬ hashes.s256 (text exchange.codeVerifier) ≠ text authCode.codeChallenge :=
    not_not.mpr right.verified
  simp only [refuseExchange, unused, Bool.false_eq_true, if_false, if_neg client,
    if_neg (Int.not_lt.mpr current), if_neg redirect, if_neg pkce, if_neg right.verifier,
    if_neg verified]

def exchangeRun (request : Nat) (exchange : ExchangeRequest) (draw : Draw) : List OAuthLabel :=
  [.request request (.exchange exchange), .request request .readCode,
    .request request (.redeem .decided), .request request (.markUsed .joins),
    .request request (.issue draw .commits)]

theorem exchangeRun_answers {state : OAuthState} {request : Nat} {draw : Draw}
    (redeemable : Redeemable hashes state.tables authCode)
    (right : ByRightClient hashes authCode exchange) (idle : state.stage request = .idle)
    (ok : draw.ok hashes state.tables = true)
    : ∃ final, (oauthEndpoints hashes).run state (exchangeRun request exchange draw) = some final
      ∧ final.stage request = .answered (draw.answer authCode.scope) := by
  have passes := refuseExchange_rightClient redeemable.unused redeemable.current
    redeemable.challenged redeemable.method right
  have named : ¬ (exchange.code = "" ∨ exchange.clientId = "") := by
    rintro (noCode | noClient)
    · exact right.named.1 noCode
    · exact right.named.2 noClient
  have stored := redeemable.stored
  have free := redeemable.unclaimed
  rw [← right.code] at stored free
  have stillOk : draw.ok hashes (state.tables.claim (.code (hashes.sha256 exchange.code)))
      = true := ok
  simp [System.run, exchangeRun, oauthEndpoints, oauthStep, requestStep, exchangeStep, readCodeStep,
    redeemStep, markUsedStep, issueStep, Move.goto, idle, named, stored, passes,
    claimOAuthSingleUse, free, stillOk]

theorem redeem_refused {state after : OAuthState} {request : Nat} {stored : AuthCodeRow}
    {choice : ClaimChoice} {refusal : OAuthAnswer}
    (reads : state.stage request = .codeRead exchange stored)
    (refused : refuseExchange hashes state.tables.clock stored exchange = some refusal)
    (taken : oauthStep hashes state (.request request (.redeem choice)) = some after)
    : after = { state with
        stage := Function.update state.stage request (.answered refusal) } := by
  obtain ⟨move, moved, rfl⟩ := Option.map_eq_some_iff.mp taken
  rw [reads] at moved
  simp only [requestStep, redeemStep, refused, Option.some.injEq] at moved
  obtain rfl := moved
  rfl

theorem refusal_leaves_redeemable {state after : OAuthState} {request : Nat}
    {stored : AuthCodeRow} {choice : ClaimChoice} {refusal : OAuthAnswer}
    {rightful : ExchangeRequest}
    (reads : state.stage request = .codeRead exchange stored)
    (refused : refuseExchange hashes state.tables.clock stored exchange = some refusal)
    (taken : oauthStep hashes state (.request request (.redeem choice)) = some after)
    (redeemable : Redeemable hashes state.tables authCode)
    (right : ByRightClient hashes authCode rightful)
    {other : Nat} {draw : Draw} (idle : state.stage other = .idle)
    (ok : draw.ok hashes state.tables = true)
    : ∃ final, (oauthEndpoints hashes).run after (exchangeRun other rightful draw) = some final
      ∧ final.stage other = .answered (draw.answer authCode.scope) := by
  obtain rfl := redeem_refused reads refused taken
  have different : other ≠ request := by
    rintro rfl
    rw [reads] at idle
    cases idle
  exact exchangeRun_answers redeemable right (by simp [different, idle]) ok

-- Over every run

def issuesFor (code : String) : OAuthEvent → Bool
  | .issued exchange _ => exchange.code = code
  | _ => false

def rotatesToken (tokenHash : String) : OAuthEvent → Bool
  | .rotated rotated _ => rotated = tokenHash
  | _ => false

theorem countP_le_one_of_pairwise {Entry : Type} {relation : Entry → Entry → Prop}
    {kind : Entry → Bool} (excludes : ∀ left right, kind left → kind right → ¬ relation left right)
    {entries : List Entry} (h : entries.Pairwise relation)
    : entries.countP kind ≤ 1 := by
  induction h with
  | nil => simp
  | @cons entry rest related _ ih =>
    rw [List.countP_cons]
    by_cases isKind : kind entry
    · have none : rest.countP kind = 0 :=
        List.countP_eq_zero.mpr fun other member also =>
          excludes entry other isKind also (related other member)
      simp [none, isKind]
    · simpa [isKind] using ih

theorem issued_at_most_once {log : List OAuthEvent} (h : log.Pairwise MayFollow) (code : String)
    : log.countP (issuesFor code) ≤ 1 := by
  apply countP_le_one_of_pairwise _ h
  intro left right isLeft isRight
  cases left <;> cases right <;> simp_all [issuesFor, MayFollow]

theorem rotated_at_most_once {log : List OAuthEvent} (h : log.Pairwise MayFollow)
    (tokenHash : String)
    : log.countP (rotatesToken tokenHash) ≤ 1 := by
  apply countP_le_one_of_pairwise _ h
  intro left right isLeft isRight
  cases left <;> cases right <;> simp_all [rotatesToken, MayFollow]

/-- In every run whose rotations claim promptly: each code yields at most one pair, only for
the verifier of its challenge and the client it was issued to; each refresh token is rotated
at most once, and not after its revoke has succeeded; and a refused exchange leaves its code
to the right client.
-/
theorem codes_and_tokens_used_once (hashes : OAuthHashes) (state : OAuthState)
    (h : (oauthEndpoints hashes).ReachableUnder ClaimsPromptly state)
    : (∀ code, state.log.countP (issuesFor code) ≤ 1)
      ∧ (∀ exchange request, .issued exchange request ∈ state.log
        → ∃ authCode, state.tables.codes exchange.code = some authCode
          ∧ authCode.clientId = exchange.clientId
          ∧ text authCode.codeChallenge = hashes.s256 (text exchange.codeVerifier))
      ∧ (∀ tokenHash, state.log.countP (rotatesToken tokenHash) ≤ 1)
      ∧ (∀ tokenHash revoker rotator since before,
        state.log = since ++ .revoked tokenHash revoker :: before
          → .rotated tokenHash rotator ∉ since)
      ∧ ∀ request exchange stored choice refusal after,
        state.stage request = .codeRead exchange stored
          → refuseExchange hashes state.tables.clock stored exchange = some refusal
          → oauthStep hashes state (.request request (.redeem choice)) = some after
          → after.tables = state.tables
            ∧ ∀ authCode other rightful draw, Redeemable hashes state.tables authCode
              → ByRightClient hashes authCode rightful → state.stage other = .idle
              → draw.ok hashes state.tables = true
              → ∃ final,
                (oauthEndpoints hashes).run after (exchangeRun other rightful draw) = some final
                  ∧ final.stage other = .answered (draw.answer authCode.scope) := by
  obtain ⟨-, history⟩ := oauth_invariant h
  refine ⟨issued_at_most_once history.order, ?_, rotated_at_most_once history.order, ?_, ?_⟩
  · intro exchange request member
    obtain ⟨-, -, authCode, ⟨stored, found, same⟩, client, challenge⟩ :=
      history.issued exchange request member
    refine ⟨stored, found, ?_, ?_⟩
    · rw [← client, ← same]
    · rw [← challenge, ← same]
  · intro tokenHash revoker rotator since before log member
    have order := history.order
    rw [log, List.pairwise_append] at order
    exact order.2.2 _ member _ List.mem_cons_self rfl
  · intro request exchange stored choice refusal after reads refused taken
    refine ⟨?_, ?_⟩
    · rw [redeem_refused reads refused taken]
    · intro authCode other rightful draw redeemable right idle ok
      exact refusal_leaves_redeemable reads refused taken redeemable right idle ok

-- Runs

def plainHashes : OAuthHashes where
  sha256 token := "sha256 of " ++ token
  s256 verifier := verifier

def noRequests : OAuthState where
  tables :=
    { clock := 0, codes := fun _ => none, tokens := [], claims := fun _ => none, presented := [] }
  lock := Ledger.fresh
  stage := fun _ => .idle
  log := []

theorem noRequests_initial : (oauthEndpoints plainHashes).initial noRequests :=
  ⟨fun _ => rfl, rfl, fun _ => rfl, rfl, rfl, fun _ => rfl, rfl⟩

def firstDraw : Draw where
  pair := { accessId := "at_1", refreshId := "rt_1", accessToken := "a", refreshToken := "r" }
  stampedAt := 0

def secondDraw : Draw where
  pair := { accessId := "at_2", refreshId := "rt_2", accessToken := "b", refreshToken := "s" }
  stampedAt := 0

def challengeText : String := "AAAAAAAAAAAAAAAAAAAAAAAAAAAAAAAAAAAAAAAAAAA"

def consented : AuthCodeRow where
  id := "code"
  clientId := "client"
  principalId := "flint"
  redirectUri := "https://claude.com/api/mcp/auth_callback"
  scope := "memory:read"
  codeChallenge := some (.str challengeText)
  codeChallengeMethod := some (.str "S256")
  expiresAt := 600000
  used := false
  createdAt := 0

def rightfulExchange : ExchangeRequest where
  code := "code"
  clientId := "client"
  redirectUri := ""
  codeVerifier := some (.str challengeText)

def revokesToken (request : Nat) (token : String) : List OAuthLabel :=
  [.request request (.revoke token), .request request .findTokens,
    .request request (.lockRevoke .taken), .request request (.claimRevoke .decided),
    .request request (.putRevoked 0 .joins), .request request .endRevoke]

/-- A rotation checks the token and waits for eight days; a revoke claims the token and stages
its put; the claim expires, the rotation claims the token again, the revoke commits and is
answered, and the rotation issues its pair.
-/
def stalledRotation : List OAuthLabel :=
  [.otherGrant "client" "flint" "memory:read" firstDraw 2, .request 1 (.rotate "r" ""),
    .request 1 .findRefresh] ++ revokesToken 2 "r"
  ++ [.tick 691200000, .expireClaim (.refresh "sha256 of r"),
    .request 1 (.lockRotation .taken), .request 1 (.claimRotation .decided),
    .request 1 .rereadRow, .request 2 .finish, .request 1 (.commitRotation secondDraw .commits)]

/-- A claim's row expires, so a rotation that stalls before its claim issues a pair after the
token's revoke was answered with success.
-/
theorem stalled_rotation_follows_revoke
    : ∃ state, (oauthEndpoints plainHashes).Reachable state
      ∧ state.log = [.rotated "sha256 of r" 1, .revoked "sha256 of r" 2] := by
  have final : ((oauthEndpoints plainHashes).run noRequests stalledRotation).map (·.log)
      = some [.rotated "sha256 of r" 1, .revoked "sha256 of r" 2] := by
    decide
  obtain ⟨state, executed, log⟩ := Option.map_eq_some_iff.mp final
  exact ⟨state, System.reachable_of_run noRequests_initial executed, log⟩

/-- A code redeemed once and its refresh token revoked. -/
theorem redeemed_code_yields_one_pair
    : ∃ state, (oauthEndpoints plainHashes).Reachable state
      ∧ state.log.countP (issuesFor "code") = 1
      ∧ ∃ authCode, state.tables.codes "code" = some authCode
        ∧ text authCode.codeChallenge = challengeText := by
  have final : ((oauthEndpoints plainHashes).run noRequests
        (.authorize consented :: exchangeRun 1 rightfulExchange firstDraw)).map (·.log)
      = some [.issued rightfulExchange 1, .redeemed rightfulExchange 1 0] := by
    decide
  obtain ⟨state, executed, log⟩ := Option.map_eq_some_iff.mp final
  have run : (oauthEndpoints plainHashes).ReachesUnder ClaimsPromptly noRequests state := by
    apply System.reachesUnder_of_run _ executed
    intro label member state
    simp only [exchangeRun, List.mem_cons, List.not_mem_nil, or_false] at member
    rcases member with rfl | rfl | rfl | rfl | rfl | rfl <;> trivial
  have reached : (oauthEndpoints plainHashes).ReachableUnder ClaimsPromptly state :=
    ⟨noRequests, noRequests_initial, run⟩
  obtain ⟨atMost, verified, -⟩ := codes_and_tokens_used_once plainHashes state reached
  have issued : .issued rightfulExchange 1 ∈ state.log := by
    rw [log]
    exact List.mem_cons_self
  obtain ⟨authCode, stored, -, challenge⟩ := verified rightfulExchange 1 issued
  refine ⟨state, reached.reachable, ?_, authCode, stored, challenge⟩
  apply Nat.le_antisymm (atMost "code")
  rw [log]
  decide

end Flair.OAuth
