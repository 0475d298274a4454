import Flair.OAuth.Requests
import Flair.WriteBack.StoredRows

/-! What a jwt-bearer grant reads of a verified assertion and of a credential, and what it
writes. Follows `resources/XAA.ts` and `src/lib/credential-status-rule.ts`.
-/

namespace Flair.XAA

open Dynamic Flair.OAuth
open Flair.WriteBack (idText sameStoredRow withoutHarperManagedFields)

def clockSkewMs : Rat := 30000

def idJagMaxValidityMs : Rat := 24 * 3600000

/-- `ID_JAG_REPLAY_RETENTION_S`, in milliseconds: the age at which a jti's row may be removed. -/
def idJagReplayRetentionMs : Int := 90000000

/-- The fields of an IdpConfig row that a grant reads. -/
structure IdpConfig where
  id : String
  name : Option Value
  requiredDomain : String
  jitProvision : Bool
  allowedScopes : List String
  clientId : String

-- The verified claims

def domainRefusal (config : IdpConfig) (payload : Record) : Option String :=
  let hd := payload.get "hd"
  let tid := payload.get "tid"
  if config.requiredDomain = "" then none
  else if truthy hd && !strictEquals hd (some (.str config.requiredDomain)) then
    some ("domain mismatch: expected " ++ config.requiredDomain ++ ", got " ++ idText hd)
  else if truthy tid && !strictEquals tid (some (.str config.requiredDomain)) then
    some ("tenant mismatch: expected " ++ config.requiredDomain ++ ", got " ++ idText tid)
  else if !truthy hd && !truthy tid then
    some "domain required but no hd/tid claim present — consumer account rejected"
  else none

/-- A jti that is present is a text, and its assertion expires soon enough. -/
def jtiRefusal (now : Rat) (payload : Record) : Option String :=
  match payload.get "jti" with
  | none => none
  | some (.str "") => some "jti claim must be a nonempty string"
  | some (.str _) =>
    match payload.get "exp" with
    | some (.num exp) =>
      if now + idJagMaxValidityMs + clockSkewMs < exp * 1000 then
        some "an assertion with a jti must carry an exp at most 24 hours ahead"
      else none
    | _ => some "an assertion with a jti must carry an exp at most 24 hours ahead"
  | some _ => some "jti claim must be a nonempty string"

/-- The checks of `validateIdJag` on the claims the library has verified. -/
def claimsRefusal (now : Rat) (config : IdpConfig) (payload : Record) : Option String :=
  (domainRefusal config payload).or (jtiRefusal now payload)

/-- The subject's lock: the provider and `String(payload.sub)`. -/
abbrev SubjectKey := String × String

def subjectKey (config : IdpConfig) (payload : Record) : SubjectKey :=
  (config.id, idText (payload.get "sub"))

def grantedScope (config : IdpConfig) (payload : Record) : Option String :=
  let requested :=
    match payload.get "scope" with
    | none | some .null => some "memory:read"
    | claim => asString claim
  requested.map fun requested =>
    let scopes := requested.splitOn " "
    let granted :=
      if config.allowedScopes = [] then scopes
      else scopes.filter fun scope => scope ∈ config.allowedScopes
    " ".intercalate granted

-- Credentials

def isUsableCredential (cred : Record) : Bool := decide (cred.get "status" = some (.str "active"))

def credentialPrincipalId (cred : Record) : Option String :=
  (asString (cred.get "principalId")).filter (· ≠ "")

def credentialMapsPrincipal (cred : Record) : Bool :=
  isUsableCredential cred && (credentialPrincipalId cred).isSome

def matchesSubject (config : IdpConfig) (payload cred : Record) : Bool :=
  decide (cred.get "kind" = some (.str "idp"))
    && decide (cred.get "idpSubject" = payload.get "sub")
    && decide (cred.get "idpProvider" = some (.str config.id))

def credentialRefusal (cred : Record) : String :=
  let state :=
    if isUsableCredential cred then "names no principal"
    else "has status \"" ++ idText (cred.get "status") ++ "\""
  "IdP credential for this subject " ++ state ++ "; the jwt-bearer grant is refused"

/-- `{ ...cred, lastUsedAt: nowISO() }` -/
def touchedRow (cred : Record) (now : String) : Record := cred.set "lastUsedAt" (.str now)

def stillMatched (cred : Record) (committed : Option Record) : Bool :=
  committed.any fun row =>
    credentialMapsPrincipal row && sameStoredRow (some row) (some cred)
      && ["principalId", "kind", "idpSubject", "idpProvider"].all fun field =>
        strictEquals (row.get field) (cred.get field)

def touchedFields (touched : Record) : Record := withoutHarperManagedFields touched

def field (name : String) (value : Option Value) : List (String × Value) :=
  (value.map fun value => (name, value)).toList

/-- `payload.email ?? payload.preferred_username` -/
def claimedEmail (payload : Record) : Option Value :=
  if isNullish (payload.get "email") then payload.get "preferred_username"
  else payload.get "email"

/-- The principal's id: the subject's first letters and digits, and random ones. -/
def newPrincipalId (subject suffix : String) : String :=
  "usr_" ++ String.ofList ((subject.toList.map fun c =>
    if c.isAlphanum then c else '_').take 20) ++ "_" ++ suffix

def jitCredential (config : IdpConfig) (payload : Record) (credentialId principalId now : String)
    : Record :=
  .ofFields (field "label" config.name ++ field "idpSubject" (payload.get "sub")
    ++ field "idpEmail" (claimedEmail payload)
    ++ [("id", .str credentialId), ("principalId", .str principalId), ("kind", .str "idp"),
      ("status", .str "active"), ("idpProvider", .str config.id), ("createdAt", .str now),
      ("lastUsedAt", .str now)])

theorem credentialMapsPrincipal_touchedRow (cred : Record) (now : String)
    : credentialMapsPrincipal (touchedRow cred now) = credentialMapsPrincipal cred := by
  simp [credentialMapsPrincipal, isUsableCredential, credentialPrincipalId, touchedRow]

theorem credentialPrincipalId_touchedRow (cred : Record) (now : String)
    : credentialPrincipalId (touchedRow cred now) = credentialPrincipalId cred := by
  simp [credentialPrincipalId, touchedRow]

theorem newPrincipalId_ne (subject suffix : String) : newPrincipalId subject suffix ≠ "" := by
  intro empty
  have length := congrArg String.length empty
  simp [newPrincipalId] at length

theorem jitCredential_maps (config : IdpConfig) (payload : Record)
    (credentialId subject suffix now : String)
    : credentialMapsPrincipal
        (jitCredential config payload credentialId (newPrincipalId subject suffix) now) = true := by
  simp [credentialMapsPrincipal, isUsableCredential, credentialPrincipalId, jitCredential,
    Record.ofFields, asString, newPrincipalId_ne]

-- Tokens

/-- A row of OAuthToken that a grant writes. -/
structure IdpTokenRow extends TokenRow where
  idpIssuer : Option Value
  idpSubject : Option Value
deriving DecidableEq

end Flair.XAA
