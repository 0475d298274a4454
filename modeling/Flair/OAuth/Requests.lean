import Flair.Foundations.Values

/-! The rows, requests and checks of the OAuth token and revocation endpoints. Follows
`resources/OAuth.ts`.
-/

namespace Flair.OAuth

open Dynamic

/-- The SHA-256 of a text, as hex and as unpadded base64url. -/
structure OAuthHashes where
  sha256 : String → String
  s256 : String → String

def accessTokenTtlMs : Int := 3600000

def refreshTokenTtlMs : Int := 7 * 86400000

def authCodeTtlMs : Int := 600000

/-- `OAUTH_SINGLE_USE_RETENTION_S`, in milliseconds: the age at which a claim's row may be
removed.
-/
def singleUseRetentionMs : Int := 691200000

-- Rows

structure AuthCodeRow where
  id : String
  clientId : String
  principalId : String
  redirectUri : String
  scope : String
  codeChallenge : Option Value
  codeChallengeMethod : Option Value
  expiresAt : Int
  used : Bool
  createdAt : Int

inductive TokenType where
  | access
  | refresh
deriving DecidableEq

/-- A row of OAuthToken; its timestamps as instants. -/
structure TokenRow where
  id : String
  tokenHash : String
  tokenType : TokenType
  clientId : String
  principalId : String
  scope : String
  expiresAt : Int
  revokedAt : Option Int
  parentTokenId : Option String
  createdAt : Int
deriving DecidableEq

/-- Which key a single-use row records: `c:<hash>` of a code, `r:<hash>` of a refresh token. -/
inductive SingleUseKey where
  | code (hash : String)
  | refresh (hash : String)
deriving DecidableEq

def putToken (tokens : List TokenRow) (row : TokenRow) : List TokenRow :=
  row :: tokens.filter (fun other => other.id ≠ row.id)

theorem mem_putToken {tokens : List TokenRow} {row other : TokenRow}
    : other ∈ putToken tokens row ↔ other = row ∨ other ∈ tokens ∧ other.id ≠ row.id := by
  simp [putToken]

-- Answers

inductive OAuthAnswer where
  | refused (status : Nat) (error : String) (description : Option String)
  | pair (accessToken refreshToken scope : String)
  | revoked
  | threw
deriving DecidableEq

def invalidRequest (description : Option String) : OAuthAnswer :=
  .refused 400 "invalid_request" description

def invalidGrant (description : Option String) : OAuthAnswer :=
  .refused 400 "invalid_grant" description

def storeUnavailable : OAuthAnswer :=
  .refused 503 "temporarily_unavailable" (some "replay_store_unavailable")

def tokenLifecycleBusy : OAuthAnswer :=
  .refused 503 "temporarily_unavailable" (some "token_lifecycle_in_progress")

-- The consent form's approval

def isBase64UrlChar (c : Char) : Bool := c.isAlphanum || c = '-' || c = '_'

/-- `S256_CODE_CHALLENGE` -/
def isS256Challenge (text : String) : Bool :=
  text.toList.length = 43 && text.toList.all isBase64UrlChar

def checkConsentPkce (codeChallenge codeChallengeMethod : Option Value) : Bool :=
  match codeChallenge with
  | some (.str challenge) =>
    isS256Challenge challenge && decide (codeChallengeMethod = some (.str "S256"))
  | _ => false

-- Checks of a request

structure ExchangeRequest where
  code : String
  clientId : String
  redirectUri : String
  codeVerifier : Option Value
deriving DecidableEq

def text (value : Option Value) : String := (asString value).getD ""

/-- The checks of `handleAuthorizationCode` between its read and its claim. -/
def refuseExchange (hashes : OAuthHashes) (now : Int) (authCode : AuthCodeRow)
    (request : ExchangeRequest)
    : Option OAuthAnswer :=
  if authCode.used then some (invalidGrant (some "code already used"))
  else if authCode.clientId ≠ request.clientId then some (invalidGrant none)
  else if authCode.expiresAt < now then some (invalidGrant (some "code expired"))
  else if request.redirectUri ≠ "" ∧ authCode.redirectUri ≠ request.redirectUri then
    some (invalidGrant none)
  else if text authCode.codeChallenge = ""
      ∨ authCode.codeChallengeMethod ≠ some (.str "S256") then
    some (invalidGrant (some "authorization code has no S256 code_challenge"))
  else if text request.codeVerifier = "" then
    some (invalidRequest (some "code_verifier required"))
  else if hashes.s256 (text request.codeVerifier) ≠ text authCode.codeChallenge then
    some (invalidGrant (some "PKCE verification failed"))
  else none

/-- The checks of `handleRefreshToken` between its search and its claim. -/
def refuseRotation (now : Int) (row : TokenRow) (clientId : String) : Option OAuthAnswer :=
  if row.revokedAt.isSome then some (invalidGrant (some "token revoked"))
  else if row.expiresAt < now then some (invalidGrant (some "refresh token expired"))
  else if clientId ≠ "" ∧ row.clientId ≠ clientId then some (invalidGrant none)
  else none

theorem refuseExchange_none {hashes : OAuthHashes} {now : Int} {authCode : AuthCodeRow}
    {request : ExchangeRequest} (h : refuseExchange hashes now authCode request = none)
    : authCode.used = false ∧ authCode.clientId = request.clientId
      ∧ now ≤ authCode.expiresAt
      ∧ text authCode.codeChallenge = hashes.s256 (text request.codeVerifier)
      ∧ authCode.codeChallengeMethod = some (.str "S256") := by
  unfold refuseExchange at h
  split at h
  · cases h
  rename_i unused
  split at h
  · cases h
  rename_i client
  split at h
  · cases h
  rename_i current
  split at h
  · cases h
  split at h
  · cases h
  rename_i challenged
  split at h
  · cases h
  split at h
  · cases h
  rename_i verified
  have method : authCode.codeChallengeMethod = some (.str "S256") := by
    by_contra other
    exact challenged (Or.inr other)
  exact ⟨by simpa using unused, not_not.mp client, Int.not_lt.mp current,
    (not_not.mp verified).symm, method⟩

theorem refuseRotation_none {now : Int} {row : TokenRow} {clientId : String}
    (h : refuseRotation now row clientId = none)
    : row.revokedAt = none ∧ now ≤ row.expiresAt := by
  unfold refuseRotation at h
  split at h
  · cases h
  rename_i active
  split at h
  · cases h
  rename_i current
  exact ⟨by simpa using active, Int.not_lt.mp current⟩

-- Token pairs

/-- What `issueTokenPair` draws at random. -/
structure NewPair where
  accessId : String
  refreshId : String
  accessToken : String
  refreshToken : String
deriving DecidableEq

def accessRow (hashes : OAuthHashes) (pair : NewPair) (clientId principalId scope : String)
    (now : Int)
    : TokenRow where
  id := pair.accessId
  tokenHash := hashes.sha256 pair.accessToken
  tokenType := .access
  clientId
  principalId
  scope
  expiresAt := now + accessTokenTtlMs
  revokedAt := none
  parentTokenId := none
  createdAt := now

def refreshRow (hashes : OAuthHashes) (pair : NewPair) (clientId principalId scope : String)
    (now : Int)
    : TokenRow where
  id := pair.refreshId
  tokenHash := hashes.sha256 pair.refreshToken
  tokenType := .refresh
  clientId
  principalId
  scope
  expiresAt := now + refreshTokenTtlMs
  revokedAt := none
  parentTokenId := some pair.accessId
  createdAt := now

def NewPair.fresh (hashes : OAuthHashes) (tokens : List TokenRow) (presented : List String)
    (pair : NewPair)
    : Bool :=
  decide (pair.accessId ≠ pair.refreshId)
    && decide (hashes.sha256 pair.accessToken ≠ hashes.sha256 pair.refreshToken)
    && tokens.all (fun row => row.id ≠ pair.accessId && row.id ≠ pair.refreshId
      && row.tokenHash ≠ hashes.sha256 pair.accessToken
      && row.tokenHash ≠ hashes.sha256 pair.refreshToken)
    && decide (hashes.sha256 pair.accessToken ∉ presented)
    && decide (hashes.sha256 pair.refreshToken ∉ presented)

end Flair.OAuth
