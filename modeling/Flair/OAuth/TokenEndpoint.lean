import Flair.Foundations.KeyLedger
import Flair.Foundations.Systems
import Flair.OAuth.Requests

/-! The authorize, token and revocation endpoints on one instance: any number of requests, one
transition for each awaited step, over the tables of codes, tokens and single-use claims and
the per-token lock. Follows `resources/OAuth.ts`, `resources/replay-store.ts` and
`resources/key-lock.ts`.
-/

namespace Flair.OAuth

open Dynamic KeyLedger Transition

-- Tables

/-- The clock and the tables: codes, tokens, and the single-use claims with the time each was
recorded. `presented` are the hashes of the tokens some rotation or revoke has presented.
-/
structure OAuthTables where
  clock : Int
  codes : String → Option AuthCodeRow
  tokens : List TokenRow
  claims : SingleUseKey → Option Int
  presented : List String

namespace OAuthTables

def put (tables : OAuthTables) (row : TokenRow) : OAuthTables :=
  { tables with tokens := putToken tables.tokens row }

def putAll (tables : OAuthTables) (rows : List TokenRow) : OAuthTables :=
  rows.foldl put tables

def present (tables : OAuthTables) (tokenHash : String) : OAuthTables :=
  { tables with presented := tokenHash :: tables.presented }

def putCode (tables : OAuthTables) (authCode : AuthCodeRow) : OAuthTables :=
  { tables with codes := Function.update tables.codes authCode.id (some authCode) }

/-- `put({ ...authCode, used: true })` -/
def markUsed (tables : OAuthTables) (authCode : AuthCodeRow) : OAuthTables :=
  tables.putCode { authCode with used := true }

def claim (tables : OAuthTables) (key : SingleUseKey) : OAuthTables :=
  { tables with claims := Function.update tables.claims key (some tables.clock) }

end OAuthTables

/-- How a claim goes: the row decides, or the store throws, with the row written or not. -/
inductive ClaimChoice where
  | decided
  | failed (written : Bool)

inductive ReplayClaim where
  | recorded
  | replay
  | unavailable
deriving DecidableEq

/-- `claimOAuthSingleUse`, atomic: no claim of a key finds another one of it in progress. -/
def claimOAuthSingleUse (tables : OAuthTables) (key : SingleUseKey)
    : ClaimChoice → OAuthTables × ReplayClaim
  | .decided =>
    if (tables.claims key).isSome then (tables, .replay) else (tables.claim key, .recorded)
  | .failed written =>
    if written ∧ tables.claims key = none then (tables.claim key, .unavailable)
    else (tables, .unavailable)

structure Draw where
  pair : NewPair
  stampedAt : Int

def Draw.ok (hashes : OAuthHashes) (tables : OAuthTables) (draw : Draw) : Bool :=
  draw.pair.fresh hashes tables.tokens tables.presented
    && decide (draw.stampedAt ≤ tables.clock)

/-- The two rows of `issueTokenPair`. -/
def pairRows (hashes : OAuthHashes) (draw : Draw) (clientId principalId scope : String)
    : List TokenRow :=
  [accessRow hashes draw.pair clientId principalId scope draw.stampedAt,
    refreshRow hashes draw.pair clientId principalId scope draw.stampedAt]

def Draw.answer (draw : Draw) (scope : String) : OAuthAnswer :=
  .pair draw.pair.accessToken draw.pair.refreshToken scope

-- Requests

/-- Where a request is between two of its awaited steps: a code exchange, a rotation, then a
revoke. A revoke carries the rows still to visit and the ones its transaction will put.
-/
inductive RequestStage where
  | idle
  | exchanging (exchange : ExchangeRequest)
  | codeRead (exchange : ExchangeRequest) (authCode : AuthCodeRow)
  | redeeming (exchange : ExchangeRequest) (authCode : AuthCodeRow)
  | issuing (exchange : ExchangeRequest) (authCode : AuthCodeRow) (marked : Bool)
  | refreshing (tokenHash clientId : String)
  | awaitingLock (tokenHash : String) (row : TokenRow) (checkedAt : Int)
  | rotationLocked (tokenHash : String) (row : TokenRow) (checkedAt : Int)
  | rotationClaimed (tokenHash : String) (row : TokenRow)
  | rotating (tokenHash : String) (committed : TokenRow)
  | searching (tokenHash : String)
  | revoking (tokenHash : String) (rest staged : List TokenRow)
  | revokeLocked (tokenHash : String) (row : TokenRow) (rest staged : List TokenRow)
  | revokeClaimed (tokenHash : String) (row : TokenRow) (rest staged : List TokenRow)
  | returning (tokenHash : String) (answer : OAuthAnswer) (staged : List TokenRow)
  | answered (answer : OAuthAnswer)

/-- What the run records: a code's claim and the pair issued for it, a refresh token's
rotation, and a revoke answered with success.
-/
inductive OAuthEvent where
  | redeemed (exchange : ExchangeRequest) (request : Nat) (time : Int)
  | issued (exchange : ExchangeRequest) (request : Nat)
  | rotated (tokenHash : String) (request : Nat)
  | revoked (tokenHash : String) (request : Nat)
deriving DecidableEq

/-- How `withTokenLifecycleLock` goes: the lock is taken, it stayed held, or the store has
none.
-/
inductive LockChoice where
  | taken
  | busy
  | unavailable

/-- How an awaited write goes: it joins the request's transaction or commits. -/
inductive WriteChoice where
  | joins
  | commits

/-- How a request's last writes go: they commit, or something throws with the code marked or
not and this many of the new rows stored.
-/
inductive IssueChoice where
  | commits
  | throws (marked : Bool) (stored : Nat)

inductive RequestLabel where
  | exchange (exchange : ExchangeRequest)
  | readCode
  | redeem (choice : ClaimChoice)
  | markUsed (choice : WriteChoice)
  | issue (draw : Draw) (choice : IssueChoice)
  | rotate (refreshToken clientId : String)
  | findRefresh
  | lockRotation (choice : LockChoice)
  | claimRotation (choice : ClaimChoice)
  | rereadRow
  | commitRotation (draw : Draw) (choice : IssueChoice)
  | revoke (token : String)
  | findTokens
  | lockRevoke (choice : LockChoice)
  | claimRevoke (choice : ClaimChoice)
  | putRevoked (now : Int) (choice : WriteChoice)
  | endRevoke
  | finish
  | throws

/-- What one step of a request reads and leaves: the tables, the locks of the tokens and the
request's stage, with what the run records of it.
-/
structure Move where
  tables : OAuthTables
  lock : Ledger String Nat
  stage : RequestStage
  event : Option OAuthEvent := none

def Move.goto (tables : OAuthTables) (lock : Ledger String Nat) (stage : RequestStage)
    : Move where
  tables
  lock
  stage

-- handleAuthorizationCode

section Steps

variable (hashes : OAuthHashes) (tables : OAuthTables) (lock : Ledger String Nat)
  (request : Nat)

def exchangeStep (exchange : ExchangeRequest) : RequestStage → Option Move
  | .idle =>
    if exchange.code = "" ∨ exchange.clientId = "" then
      some (.goto tables lock (.answered (invalidRequest none)))
    else some (.goto tables lock (.exchanging exchange))
  | _ => none

def readCodeStep : RequestStage → Option Move
  | .exchanging exchange =>
    match tables.codes exchange.code with
    | none => some (.goto tables lock (.answered (invalidGrant none)))
    | some authCode => some (.goto tables lock (.codeRead exchange authCode))
  | _ => none

def redeemStep (choice : ClaimChoice) : RequestStage → Option Move
  | .codeRead exchange authCode =>
    match refuseExchange hashes tables.clock authCode exchange with
    | some refusal => some (.goto tables lock (.answered refusal))
    | none =>
      match claimOAuthSingleUse tables (.code (hashes.sha256 exchange.code)) choice with
      | (claimed, .unavailable) => some (.goto claimed lock (.answered storeUnavailable))
      | (claimed, .replay) =>
        some (.goto claimed lock (.answered (invalidGrant (some "code already used"))))
      | (claimed, .recorded) =>
        some {
          tables := claimed
          lock
          stage := .redeeming exchange authCode
          event := some (.redeemed exchange request tables.clock) }
  | _ => none

def markUsedStep (choice : WriteChoice) : RequestStage → Option Move
  | .redeeming exchange authCode =>
    match choice with
    | .joins => some (.goto tables lock (.issuing exchange authCode false))
    | .commits => some (.goto (tables.markUsed authCode) lock (.issuing exchange authCode true))
  | _ => none

/-- `issueTokenPair` and the end of the request. -/
def issueStep (draw : Draw) (choice : IssueChoice) : RequestStage → Option Move
  | .issuing exchange authCode marked =>
    if draw.ok hashes tables then
      let rows := pairRows hashes draw authCode.clientId authCode.principalId authCode.scope
      match choice with
      | .commits =>
        let written := if marked then tables else tables.markUsed authCode
        some {
          tables := written.putAll rows
          lock
          stage := .answered (draw.answer authCode.scope)
          event := some (.issued exchange request) }
      | .throws landed stored =>
        let written := if landed then tables.markUsed authCode else tables
        some (.goto (written.putAll (rows.take stored)) lock (.answered .threw))
    else none
  | _ => none

-- handleRefreshToken

def rotateStep (refreshToken clientId : String) : RequestStage → Option Move
  | .idle =>
    if refreshToken = "" then some (.goto tables lock (.answered (invalidRequest none)))
    else
      let tokenHash := hashes.sha256 refreshToken
      some (.goto (tables.present tokenHash) lock (.refreshing tokenHash clientId))
  | _ => none

def findRefreshStep : RequestStage → Option Move
  | .refreshing tokenHash clientId =>
    match tables.tokens.find? fun row =>
        row.tokenHash = tokenHash ∧ row.tokenType = .refresh with
    | none => some (.goto tables lock (.answered (invalidGrant none)))
    | some row =>
      match refuseRotation tables.clock row clientId with
      | some refusal => some (.goto tables lock (.answered refusal))
      | none => some (.goto tables lock (.awaitingLock tokenHash row tables.clock))
  | _ => none

/-- `withTokenLifecycleLock` up to the run of its `fn`: the request goes on with the lock, or
with the refusal.
-/
def withTokenLifecycleLock (tokenHash : String) (locked : RequestStage)
    (refused : OAuthAnswer → RequestStage)
    : LockChoice → Option Move
  | .taken => (lock.tryLock request tokenHash).map fun lock => .goto tables lock locked
  | .busy =>
    if (lock.holder tokenHash).isSome then
      some (.goto tables lock (refused tokenLifecycleBusy))
    else none
  | .unavailable => some (.goto tables lock (refused storeUnavailable))

def lockRotationStep (choice : LockChoice) : RequestStage → Option Move
  | .awaitingLock tokenHash row checkedAt =>
    withTokenLifecycleLock tables lock request tokenHash
      (.rotationLocked tokenHash row checkedAt) .answered choice
  | _ => none

def claimRotationStep (choice : ClaimChoice) : RequestStage → Option Move
  | .rotationLocked tokenHash row _ =>
    match claimOAuthSingleUse tables (.refresh tokenHash) choice with
    | (claimed, .unavailable) =>
      some (.goto claimed (lock.unlock request tokenHash) (.answered storeUnavailable))
    | (claimed, .replay) =>
      some (.goto claimed (lock.unlock request tokenHash)
        (.answered (invalidGrant (some "token revoked"))))
    | (claimed, .recorded) => some (.goto claimed lock (.rotationClaimed tokenHash row))
  | _ => none

def rereadRowStep : RequestStage → Option Move
  | .rotationClaimed tokenHash row =>
    match tables.tokens.find? fun other => other.id = row.id with
    | none =>
      some (.goto tables (lock.unlock request tokenHash)
        (.answered (invalidGrant (some "token revoked"))))
    | some committed =>
      if committed.tokenHash ≠ tokenHash ∨ committed.revokedAt.isSome then
        some (.goto tables (lock.unlock request tokenHash)
          (.answered (invalidGrant (some "token revoked"))))
      else some (.goto tables lock (.rotating tokenHash committed))
  | _ => none

/-- The owned transaction's writes: the old row revoked and the new pair. -/
def rotationRows (draw : Draw) (committed : TokenRow) : List TokenRow :=
  { committed with revokedAt := some draw.stampedAt }
    :: pairRows hashes draw committed.clientId committed.principalId committed.scope

/-- The owned transaction commits, or throws with all of its writes landed or none. -/
def commitRotationStep (draw : Draw) (choice : IssueChoice) : RequestStage → Option Move
  | .rotating tokenHash committed =>
    if draw.ok hashes tables then
      let rows := rotationRows hashes draw committed
      match choice with
      | .commits =>
        some {
          tables := tables.putAll rows
          lock := lock.unlock request tokenHash
          stage := .answered (draw.answer committed.scope)
          event := some (.rotated tokenHash request) }
      | .throws landed _ =>
        let written := if landed then tables.putAll rows else tables
        some (.goto written (lock.unlock request tokenHash) (.answered .threw))
    else none
  | _ => none

-- OAuthRevoke

def revokeStep (token : String) : RequestStage → Option Move
  | .idle =>
    if token = "" then some (.goto tables lock (.answered (invalidRequest none)))
    else
      let tokenHash := hashes.sha256 token
      some (.goto (tables.present tokenHash) lock (.searching tokenHash))
  | _ => none

def findTokensStep : RequestStage → Option Move
  | .searching tokenHash =>
    let rows := tables.tokens.filter fun row => row.tokenHash = tokenHash
    some (.goto tables lock (.revoking tokenHash rows []))
  | _ => none

def lockRevokeStep (choice : LockChoice) : RequestStage → Option Move
  | .revoking tokenHash (row :: rest) staged =>
    if row.tokenType = .refresh then
      withTokenLifecycleLock tables lock request tokenHash
        (.revokeLocked tokenHash row rest staged)
        (fun refusal => .returning tokenHash refusal staged) choice
    else none
  | _ => none

def claimRevokeStep (choice : ClaimChoice) : RequestStage → Option Move
  | .revokeLocked tokenHash row rest staged =>
    match claimOAuthSingleUse tables (.refresh tokenHash) choice with
    | (claimed, .unavailable) =>
      some (.goto claimed (lock.unlock request tokenHash)
        (.returning tokenHash storeUnavailable staged))
    | (claimed, _) => some (.goto claimed lock (.revokeClaimed tokenHash row rest staged))
  | _ => none

/-- The put of one visited row, stamped `now`. -/
def putRevoked (tokenHash : String) (row : TokenRow) (rest staged : List TokenRow) (now : Int)
    : WriteChoice → Move
  | .joins =>
    .goto tables lock (.revoking tokenHash rest ({ row with revokedAt := some now } :: staged))
  | .commits =>
    .goto (tables.put { row with revokedAt := some now }) lock
      (.revoking tokenHash rest staged)

def putRevokedStep (now : Int) (choice : WriteChoice) : RequestStage → Option Move
  | .revokeClaimed tokenHash row rest staged =>
    some (putRevoked tables (lock.unlock request tokenHash) tokenHash row rest staged now
      choice)
  | .revoking tokenHash (row :: rest) staged =>
    if row.tokenType = .access then
      some (putRevoked tables lock tokenHash row rest staged now choice)
    else none
  | _ => none

def endRevokeStep : RequestStage → Option Move
  | .revoking tokenHash [] staged =>
    some (.goto tables lock (.returning tokenHash .revoked staged))
  | _ => none

/-- The request's transaction commits what joined it, and the answer leaves. -/
def finishStep : RequestStage → Option Move
  | .returning tokenHash answer staged =>
    some {
      tables := tables.putAll staged
      lock
      stage := .answered answer
      event := if answer = .revoked then some (.revoked tokenHash request) else none }
  | _ => none

-- One request

def RequestStage.held : RequestStage → Option String
  | .rotationLocked tokenHash _ _ | .rotationClaimed tokenHash _ | .rotating tokenHash _
  | .revokeLocked tokenHash _ _ _ | .revokeClaimed tokenHash _ _ _ => some tokenHash
  | _ => none

/-- An awaited call rejects: the lock held is released and nothing joined commits. -/
def throwStep (stage : RequestStage) : Option Move :=
  match stage with
  | .idle | .answered _ => none
  | _ =>
    let released :=
      match stage.held with
      | some tokenHash => lock.unlock request tokenHash
      | none => lock
    some (.goto tables released (.answered .threw))

def requestStep (stage : RequestStage) : RequestLabel → Option Move
  | .exchange exchange => exchangeStep tables lock exchange stage
  | .readCode => readCodeStep tables lock stage
  | .redeem choice => redeemStep hashes tables lock request choice stage
  | .markUsed choice => markUsedStep tables lock choice stage
  | .issue draw choice => issueStep hashes tables lock request draw choice stage
  | .rotate refreshToken clientId => rotateStep hashes tables lock refreshToken clientId stage
  | .findRefresh => findRefreshStep tables lock stage
  | .lockRotation choice => lockRotationStep tables lock request choice stage
  | .claimRotation choice => claimRotationStep tables lock request choice stage
  | .rereadRow => rereadRowStep tables lock request stage
  | .commitRotation draw choice =>
    commitRotationStep hashes tables lock request draw choice stage
  | .revoke token => revokeStep hashes tables lock token stage
  | .findTokens => findTokensStep tables lock stage
  | .lockRevoke choice => lockRevokeStep tables lock request choice stage
  | .claimRevoke choice => claimRevokeStep tables lock request choice stage
  | .putRevoked now choice => putRevokedStep tables lock request now choice stage
  | .endRevoke => endRevokeStep tables lock stage
  | .finish => finishStep tables lock request stage
  | .throws => throwStep tables lock request stage

end Steps

-- The system

/-- The instance; `log` has the events newest first. -/
structure OAuthState where
  tables : OAuthTables
  lock : Ledger String Nat
  stage : Nat → RequestStage
  log : List OAuthEvent

inductive OAuthLabel where
  | tick (elapsed : Int)
  | authorize (authCode : AuthCodeRow)
  | request (request : Nat) (label : RequestLabel)
  | otherGrant (clientId principalId scope : String) (draw : Draw) (stored : Nat)
  | expireClaim (key : SingleUseKey)

@[simp] def OAuthState.apply (state : OAuthState) (request : Nat) (move : Move) : OAuthState where
  tables := move.tables
  lock := move.lock
  stage := Function.update state.stage request move.stage
  log := move.event.toList ++ state.log

def authorizeStep (tables : OAuthTables) (authCode : AuthCodeRow) : Option OAuthTables :=
  if checkConsentPkce authCode.codeChallenge authCode.codeChallengeMethod = true
      ∧ tables.codes authCode.id = none ∧ authCode.used = false
      ∧ authCode.expiresAt ≤ tables.clock + authCodeTtlMs then
    some (tables.putCode authCode)
  else none

def otherGrantStep (hashes : OAuthHashes) (tables : OAuthTables)
    (clientId principalId scope : String) (draw : Draw) (stored : Nat)
    : Option OAuthTables :=
  if draw.ok hashes tables then
    some (tables.putAll ((pairRows hashes draw clientId principalId scope).take stored))
  else none

def expireClaimStep (tables : OAuthTables) (key : SingleUseKey) : Option OAuthTables :=
  match tables.claims key with
  | some recordedAt =>
    if recordedAt + singleUseRetentionMs ≤ tables.clock then
      some { tables with claims := Function.update tables.claims key none }
    else none
  | none => none

def tickStep (tables : OAuthTables) (elapsed : Int) : Option OAuthTables :=
  if 0 ≤ elapsed then some { tables with clock := tables.clock + elapsed } else none

def oauthStep (hashes : OAuthHashes) (state : OAuthState) : OAuthLabel → Option OAuthState
  | .tick elapsed =>
    (tickStep state.tables elapsed).map fun tables => { state with tables }
  | .authorize authCode =>
    (authorizeStep state.tables authCode).map fun tables => { state with tables }
  | .request request label =>
    (requestStep hashes state.tables state.lock request (state.stage request) label).map
      (state.apply request)
  | .otherGrant clientId principalId scope draw stored =>
    (otherGrantStep hashes state.tables clientId principalId scope draw stored).map
      fun tables => { state with tables }
  | .expireClaim key =>
    (expireClaimStep state.tables key).map fun tables => { state with tables }

def oauthEndpoints (hashes : OAuthHashes) : System OAuthState OAuthLabel where
  initial state :=
    (∀ code, state.tables.codes code = none) ∧ state.tables.tokens = []
      ∧ (∀ key, state.tables.claims key = none) ∧ state.tables.presented = []
      ∧ state.lock = Ledger.fresh ∧ (∀ request, state.stage request = .idle) ∧ state.log = []
  step := oauthStep hashes

/-- A rotation reaches its claim less than a day after it checked that the token had not
expired: the retention of a claim less the lifetime of a refresh token.
-/
def ClaimsPromptly : Guard OAuthState OAuthLabel
  | state, .request request (.claimRotation _) =>
    match state.stage request with
    | .rotationLocked _ _ checkedAt =>
      state.tables.clock < checkedAt + (singleUseRetentionMs - refreshTokenTtlMs)
    | _ => True
  | _, _ => True

end Flair.OAuth
