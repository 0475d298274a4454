import Flair.Foundations.InsertionMap
import Flair.Foundations.KeyLedger
import Flair.Foundations.Systems
import Flair.XAA.Assertions

/-! Any number of jwt-bearer grants in one process, beside other writers of the credentials:
the jti's claim, the search, the touch of a matched credential or the creation of a new one, and
the two token writes, one transition for each awaited step. Follows `handleJwtBearerGrant` of
`resources/XAA.ts` and `claimIdJagJti` of `resources/replay-store.ts`.
-/

namespace Flair.XAA

open Dynamic Transition KeyLedger Flair.OAuth
open Flair.WriteBack (idText verifyCommittedFields)

-- The tables

/-- A credential's row and the order of the write that left it: the store takes a later write
over an earlier one, whichever commits last.
-/
structure CredentialCell where
  row : Option Record
  order : Option Int

namespace CredentialCell

def empty : CredentialCell := ⟨none, none⟩

def admits (cell : CredentialCell) (order : Int) : Bool := cell.order.all fun last => last ≤ order

def maps (cell : CredentialCell) : Bool := cell.row.any credentialMapsPrincipal

end CredentialCell

-- Grants

/-- The row a grant's touch stages over the credential it has read, ordered by that read. -/
structure Touch where
  id : String
  cred : Record
  touched : Record
  readAt : Int

/-- Where a grant is between two of its awaited steps. -/
inductive GrantStage where
  | idle
  | waiting
  | claiming
  | recording (writtenAt : Int)
  | searching
  | touching (touch : Touch)
  | confirmed (touch : Touch)
  | provisioning
  | verifying (touch : Touch)
  | issuing (principalId : String)
  | accessStored (principalId scope : String) (pair : NewPair)
  | answered (answer : OAuthAnswer)

/-- The subject's lock is held from the jti's claim to the end of the callback. -/
def GrantStage.locked : GrantStage → Bool
  | .claiming | .recording _ | .searching | .touching _ | .confirmed _ | .provisioning
  | .verifying _ => true
  | _ => false

def GrantStage.claims : GrantStage → Bool
  | .recording _ => true
  | _ => false

structure Grant where
  payload : Record
  config : IdpConfig
  clientId : String
  stage : GrantStage

namespace Grant

def key (grant : Grant) : SubjectKey := subjectKey grant.config grant.payload

def jti (grant : Grant) : Option String := asString (grant.payload.get "jti")

def heldSubject (grant : Grant) : Option SubjectKey :=
  if grant.stage.locked then some grant.key else none

def heldJti (grant : Grant) : Option String := if grant.stage.claims then grant.jti else none

def idle : Grant where
  payload := ∅
  config := ⟨"", none, "", false, [], ""⟩
  clientId := ""
  stage := .idle

end Grant

inductive GrantEvent where
  | claimed (id : Nat) (jti : String) (writtenAt : Int)
  | foundNone (id : Nat) (key : SubjectKey)
  | confirmed (id : Nat) (credential : String) (committed : Record)
  | touched (id : Nat) (touch : Touch) (prior : CredentialCell) (landed : Bool)
  | readBack (id : Nat) (credential : String) (committed : Record)
  | provisioned (id : Nat) (key : SubjectKey) (principalId : String)
  | tokenStored (id : Nat) (token : IdpTokenRow)
  | refreshFailed (id : Nat)
  | otherWrote (credential : String) (order : Int)

/-- The grants and the tables; the log's last event comes first and holds each token stored. -/
structure GrantState where
  clock : Int
  jtiRows : String → Option Int
  jtis : Ledger String Nat
  subjects : Ledger SubjectKey Nat
  credentials : InsertionMap String CredentialCell
  grant : Nat → Grant
  log : List GrantEvent

namespace GrantState

variable (state : GrantState)

def cell (id : String) : CredentialCell := (state.credentials.get id).getD .empty

def note (event : GrantEvent) : GrantState := { state with log := event :: state.log }

def enter (id : Nat) (stage : GrantStage) : GrantState :=
  let grant := state.grant id
  let moved := { grant with stage }
  { state with
    grant := Function.update state.grant id moved
    subjects :=
      if grant.stage.locked && !stage.locked then state.subjects.unlock id grant.key
      else state.subjects
    jtis :=
      match grant.heldJti with
      | some jti => if stage.claims then state.jtis else state.jtis.unlock id jti
      | none => state.jtis }

def refuse (id : Nat) (message : String) : GrantState :=
  state.enter id (.answered (invalidGrant (some message)))

def putCredential (id : String) (row : Option Record) (order : Int) : GrantState :=
  { state with credentials := state.credentials.set id ⟨row, some order⟩ }

def putToken (id : Nat) (token : IdpTokenRow) : GrantState :=
  state.note (.tokenStored id token)

end GrantState

-- Steps

inductive JtiCommit where
  | resolved
  | rejected (landed : Bool)
deriving DecidableEq

inductive GrantLabel where
  | tick (elapsed : Int)
  | expire (jti : String)
  | other (credential : String) (row : Option Record) (order : Int)
  | arrive (id : Nat) (assertion : Option (Except String (Record × IdpConfig)))
      (clientId : Option String)
  | lock (id : Nat)
  | miss (id : Nat)
  | claim (id : Nat) (unavailable : Bool)
  | record (id : Nat) (commit : JtiCommit)
  | search (id : Nat) (found : Option String) (now : String)
  | confirm (id : Nat)
  | commitTouch (id : Nat) (landed : Bool)
  | verify (id : Nat)
  | provision (id : Nat) (suffix credential now : String) (landed : Bool)
  | storeAccess (id : Nat) (pair : NewPair)
  | storeRefresh (id : Nat)
  | fail (id : Nat) (message : String)

def principalProvisionBusy : OAuthAnswer :=
  .refused 503 "temporarily_unavailable" (some "principal_provision_in_progress")

def credentialChanged : String :=
  "the matched IdP credential changed while the grant was in progress; "
    ++ "the jwt-bearer grant is refused"

def credentialNotShown : String :=
  "the matched IdP credential's committed state does not show this grant's staged values "
    ++ "(outcome: unconfirmed); the jwt-bearer grant is refused"

section Steps

variable (hashes : OAuthHashes) (state : GrantState) (id : Nat)

def arriveStep (assertion : Option (Except String (Record × IdpConfig)))
    (clientId : Option String)
    : Option GrantState :=
  match (state.grant id).stage, assertion with
  | .idle, none =>
    some (state.enter id (.answered
      (invalidRequest (some "assertion parameter required for jwt-bearer grant"))))
  | .idle, some (.error message) => some (state.refuse id message)
  | .idle, some (.ok (payload, config)) =>
    match claimsRefusal state.clock config payload with
    | some message => some (state.refuse id message)
    | none =>
      some { state with
        grant := Function.update state.grant id
          ⟨payload, config, clientId.getD config.clientId, .waiting⟩ }
  | _, _ => none

def lockStep : Option GrantState :=
  let grant := state.grant id
  match grant.stage with
  | .waiting =>
    (state.subjects.tryLock id grant.key).map fun subjects =>
      { state with
        subjects
        grant := Function.update state.grant id { grant with stage := .claiming } }
  | _ => none

/-- `recordOnce`, up to the row's transaction; a lock miss is refused like a stored row. -/
def claimStep (unavailable : Bool) : Option GrantState :=
  let grant := state.grant id
  match grant.stage with
  | .claiming =>
    match grant.jti with
    | none => some (state.enter id .searching)
    | some jti =>
      if unavailable then some (state.enter id (.answered storeUnavailable))
      else
        match state.jtis.tryLock id jti with
        | none => some (state.refuse id "token replay detected")
        | some jtis =>
          match state.jtiRows jti with
          | some _ => some (state.refuse id "token replay detected")
          | none =>
            some { state with
              jtis
              grant := Function.update state.grant id
                { grant with stage := .recording state.clock } }
  | _ => none

def recordStep (commit : JtiCommit) : Option GrantState :=
  let grant := state.grant id
  match grant.stage, grant.jti with
  | .recording writtenAt, some jti =>
    let written :=
      { state with jtiRows := Function.update state.jtiRows jti (some writtenAt) }
    match commit with
    | .resolved => some ((written.note (.claimed id jti writtenAt)).enter id .searching)
    | .rejected landed =>
      some ((if landed then written else state).enter id (.answered storeUnavailable))
  | _, _ => none

def searchStep (found : Option String) (now : String) : Option GrantState :=
  let grant := state.grant id
  match grant.stage, found with
  | .searching, some credential =>
    match (state.cell credential).row with
    | none => none
    | some cred =>
      if matchesSubject grant.config grant.payload cred then
        if credentialMapsPrincipal cred then
          some (state.enter id
            (.touching ⟨credential, cred, touchedRow cred now, state.clock⟩))
        else some (state.refuse id (credentialRefusal cred))
      else none
  | .searching, none =>
    if state.credentials.any fun entry =>
        entry.2.row.any (matchesSubject grant.config grant.payload) then none
    else
      let looked := state.note (.foundNone id grant.key)
      if !grant.config.jitProvision then
        some (looked.refuse id ("no principal for IdP subject "
          ++ idText (grant.payload.get "sub") ++ " and JIT provisioning is disabled"))
      else if (asString (grant.payload.get "sub")).isNone then
        some (looked.refuse id "idpSubject.replace is not a function")
      else some (looked.enter id .provisioning)
  | _, _ => none

/-- `confirmCommittedRow` of a touch that is staged. -/
def confirmStep : Option GrantState :=
  match (state.grant id).stage with
  | .touching touch =>
    match (state.cell touch.id).row with
    | some committed =>
      if stillMatched touch.cred (some committed) then
        some ((state.note (.confirmed id touch.id committed)).enter id (.confirmed touch))
      else
        some (state.refuse id credentialChanged)
    | none =>
      some (state.refuse id credentialChanged)
  | _ => none

/-- The commit of a touch: the store drops it when a later write is in place, and may drop it
otherwise.
-/
def commitTouchStep (landed : Bool) : Option GrantState :=
  match (state.grant id).stage with
  | .confirmed touch =>
    let cell := state.cell touch.id
    let landed := landed && cell.admits touch.readAt
    let after :=
      if landed then state.putCredential touch.id (some touch.touched) touch.readAt else state
    some ((after.note (.touched id touch cell landed)).enter id (.verifying touch))
  | _ => none

def verifyStep : Option GrantState :=
  match (state.grant id).stage with
  | .verifying touch =>
    match (state.cell touch.id).row, credentialPrincipalId touch.cred with
    | some committed, some principalId =>
      if verifyCommittedFields (some (some committed)) (some touch.touched)
          (touchedFields touch.touched) = .shown then
        some ((state.note (.readBack id touch.id committed)).enter id (.issuing principalId))
      else
        some (state.refuse id credentialNotShown)
    | _, _ =>
      some (state.refuse id credentialNotShown)
  | _ => none

def provisionStep (suffix credential now : String) (landed : Bool) : Option GrantState :=
  let grant := state.grant id
  match grant.stage, asString (grant.payload.get "sub") with
  | .provisioning, some subject =>
    let principalId := newPrincipalId subject suffix
    let row := jitCredential grant.config grant.payload credential principalId now
    let created :=
      if landed then state.putCredential credential (some row) state.clock else state
    some ((created.note (.provisioned id grant.key principalId)).enter id (.issuing principalId))
  | _, _ => none

def storeAccessStep (pair : NewPair) : Option GrantState :=
  let grant := state.grant id
  match grant.stage with
  | .issuing principalId =>
    match grantedScope grant.config grant.payload with
    | none => some (state.refuse id "(payload.scope ?? \"memory:read\").split is not a function")
    | some scope =>
      let token : IdpTokenRow :=
        { accessRow hashes pair grant.clientId principalId scope state.clock with
          idpIssuer := grant.payload.get "iss"
          idpSubject := grant.payload.get "sub" }
      some ((state.putToken id token).enter id (.accessStored principalId scope pair))
  | _ => none

def storeRefreshStep : Option GrantState :=
  let grant := state.grant id
  match grant.stage with
  | .accessStored principalId scope pair =>
    let token : IdpTokenRow :=
      { refreshRow hashes pair grant.clientId principalId scope state.clock with
        idpIssuer := grant.payload.get "iss"
        idpSubject := grant.payload.get "sub" }
    some ((state.putToken id token).enter id
      (.answered (.pair pair.accessToken pair.refreshToken scope)))
  | _ => none

/-- An awaited call of the grant throws; an open transaction is aborted. -/
def failStep (message : String) : Option GrantState :=
  match (state.grant id).stage with
  | .idle | .answered _ => none
  | .recording _ => some (state.enter id (.answered storeUnavailable))
  | .accessStored _ _ _ => some ((state.note (.refreshFailed id)).refuse id message)
  | _ => some (state.refuse id message)

def grantStep : GrantLabel → Option GrantState
  | .tick elapsed =>
    if 0 ≤ elapsed then some { state with clock := state.clock + elapsed } else none
  | .expire jti =>
    match state.jtiRows jti with
    | some writtenAt =>
      if writtenAt + idJagReplayRetentionMs ≤ state.clock then
        some { state with jtiRows := Function.update state.jtiRows jti none }
      else none
    | none => none
  | .other credential row order =>
    if order ≤ state.clock && (state.cell credential).admits order then
      some ((state.putCredential credential row order).note (.otherWrote credential order))
    else none
  | .arrive id assertion clientId => arriveStep state id assertion clientId
  | .lock id => lockStep state id
  | .miss id =>
    match (state.grant id).stage with
    | .waiting => some (state.enter id (.answered principalProvisionBusy))
    | _ => none
  | .claim id unavailable => claimStep state id unavailable
  | .record id commit => recordStep state id commit
  | .search id found now => searchStep state id found now
  | .confirm id => confirmStep state id
  | .commitTouch id landed => commitTouchStep state id landed
  | .verify id => verifyStep state id
  | .provision id suffix credential now landed =>
    provisionStep state id suffix credential now landed
  | .storeAccess id pair => storeAccessStep hashes state id pair
  | .storeRefresh id => storeRefreshStep hashes state id
  | .fail id message => failStep state id message

end Steps

def jwtBearerGrants (hashes : OAuthHashes) : System GrantState GrantLabel where
  initial state :=
    state.jtis = Ledger.fresh ∧ state.subjects = Ledger.fresh
      ∧ (∀ id, state.grant id = Grant.idle) ∧ state.log = []
  step := grantStep hashes

end Flair.XAA
