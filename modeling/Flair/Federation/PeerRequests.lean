import Flair.Federation.PeerRows
import Flair.Federation.SyncAccounting

/-! A hub's Peer and PairingToken tables under any number of `FederationSync.post` and
`FederationPair.post` requests and an operator's revokes: one transition for each awaited
step of a request. Follows `resources/Federation.ts`.
-/

namespace Flair.Federation

open Dynamic Transition WriteBack

structure SyncCall where
  request : SyncRequest
  lamportClock : Option String

inductive PeerRequest where
  | sync (call : SyncCall)
  | pair (request : PairRequest)

inductive Answer where
  | refused (status : Nat) (error : String)
  | threw
  | succeeded
deriving DecidableEq

/-- What a pairing's owned transaction holds before its commit. -/
structure StagedPair where
  peer : PairedRow
  token : Option Record
  firstPair : Bool

/-- Where a request is between two of its awaited steps. On the token path the owned
transaction's first read is its token read, which fixes the snapshot both rows come from.
-/
inductive Stage where
  | idle
  | syncReading (call : SyncCall)
  | syncVerifying (call : SyncCall) (peer : PeerRow)
  | syncMerging (call : SyncCall) (peer : PeerRow) (left : List SyncRecord) (merged : Nat)
  | pairVerifying (request : PairRequest)
  | pairReading (request : PairRequest)
  | locking (request : PairRequest) (firstPair : Bool) (attempt : Nat)
  | locked (request : PairRequest) (firstPair : Bool)
  | claiming (request : PairRequest) (firstPair : Bool) (token : Option Record)
      (peer : Option PeerRow)
  | claimed (request : PairRequest) (firstPair : Bool) (token : Record)
      (peer : Option PeerRow)
  | confirming (request : PairRequest) (token : Record) (nowIso writeId : String)
  | reReading (request : PairRequest)
  | committing (request : PairRequest) (staged : StagedPair)
  | unlocking (request : PairRequest) (outcome : Except Answer StagedPair)
  | readingBack (request : PairRequest) (staged : StagedPair)
  | readingToken (request : PairRequest) (staged : StagedPair) (stagedToken : Record)
      (verdict : CommittedWriteVerdict)
  | answered (answer : Answer)

structure HubState where
  peers : PeerTable
  tokens : String → Option Record
  tokenLock : String → Option Nat
  stage : Nat → Stage

/-- A commit or a put may land or be dropped, and may resolve or reject. What a pairing
checks before its Peer read, this hub's own identity included, answers with `verified`.
-/
inductive HubLabel where
  | revoke (id nowIso : String)
  | arrive (request : Nat) (body : PeerRequest)
  | verified (request : Nat) (refusal : Option (Nat × String))
  | advance (request : Nat)
  | mergeEnded (request : Nat) (outcome : MergeOutcome)
  | putPeer (request : Nat) (nowIso : String) (landed resolves : Bool)
  | lockMissing (request : Nat)
  | claim (request : Nat) (nowIso pairAttemptWriteId : String)
  | stagePeer (request : Nat) (nowIso pairAttemptWriteId : String) (fails : Bool)
  | commit (request : Nat) (landed resolves : Bool)
  | readPeer (request : Nat) (readable : Bool)
  | readToken (request : Nat) (readable : Bool)

def HubState.goto (state : HubState) (request : Nat) (stage : Stage) : HubState :=
  { state with stage := Function.update state.stage request stage }

@[simp] theorem HubState.goto_peers (state : HubState) (request : Nat) (stage : Stage)
    : (state.goto request stage).peers = state.peers := rfl

@[simp] theorem HubState.goto_stage (state : HubState) (request other : Nat) (stage : Stage)
    : (state.goto request stage).stage other
      = if other = request then stage else state.stage other := by
  simp [goto, Function.update_apply]

-- Refusals

def pairingTokenRequiredRefusal : Answer :=
  .refused 401 "pairingToken required in body for first-time pair"

def publicKeyMismatchRefusal : Answer :=
  .refused 409 "public key mismatch — peer already paired with different key"

def peerRevokedRefusal : Answer := .refused 403 "peer_revoked"

def firstPairRowAppearedRefusal : Answer := .refused 409 "peer_row_appeared"

def firstPairCommitUnconfirmedRefusal : Answer := .refused 409 "peer_pair_unconfirmed"

def firstPairReadBackUnconfirmedRefusal : Answer := .refused 503 "peer_read_back_unconfirmed"

def peerWriteFailedRefusal : Answer := .refused 503 "peer_write_failed"

def writeOutcomeUnknownResponse : Answer := .refused 503 "write_outcome_unknown"

/-- `pairingTokenRefusal`: the consumed token, or the refusal of any other claim. -/
def pairingTokenRefusal : PairingTokenClaim → Except Answer Record
  | .consumed token => .ok token
  | .bootstrapMismatch => .error (.refused 401 "bootstrap_user_token_mismatch")
  | .refused => .error (.refused 401 "invalid_or_expired_pairing_token")

-- Where a request goes next

/-- The checks of the body before anything is awaited. -/
def arrival : PeerRequest → Stage
  | .sync call =>
    if call.request.instanceId = "" ∨ call.request.records.isNone then
      .answered (.refused 400 "instanceId and records[] required")
    else .syncReading call
  | .pair request =>
    if request.instanceId = "" ∨ request.publicKey = "" then
      .answered (.refused 400 "instanceId and publicKey required")
    else if request.signature = "" then
      .answered (.refused 401 "signature required — request must be signed")
    else .pairVerifying request

def syncRead (call : SyncCall) : Option PeerRow → Stage
  | none => .answered (.refused 403 "unknown or revoked peer")
  | some peer =>
    if peer.Revoked then .answered (.refused 403 "unknown or revoked peer")
    else if call.request.signature = "" then
      .answered (.refused 401 "signature required — sync requests must be signed")
    else .syncVerifying call peer

/-- The batch keys of a sync call; a call without records has been refused before. -/
def SyncCall.offered (call : SyncCall) : Except String (List SyncRecord) :=
  collectOffered [] (call.request.records.elim [] Sequence.items)

def syncVerified (call : SyncCall) (peer : PeerRow) : Stage :=
  match call.offered with
  | .error error => .answered (.refused 400 error)
  | .ok offered => .syncMerging call peer offered 0

def rePairRefusal (request : PairRequest) (peer : PeerRow) : Option Answer :=
  if peer.publicKey ≠ some (.str request.publicKey) then some publicKeyMismatchRefusal
  else if peer.Revoked then some peerRevokedRefusal
  else none

def pairRead (request : PairRequest) : Option PeerRow → Stage
  | some existing =>
    match rePairRefusal request existing with
    | some refusal => .answered refusal
    | none =>
      if request.pairingToken = "" then .reReading request else .locking request false 0
  | none =>
    if request.pairingToken = "" then .answered pairingTokenRequiredRefusal
    else .locking request true 0

def pairLockAttempts : Nat := 200

def claimStage (request : PairRequest) (firstPair : Bool) (stored : Option Record)
    (peer : Option PeerRow) (nowIso writeId : String)
    : Stage :=
  match pairingTokenRefusal (consumePairingToken request stored nowIso writeId) with
  | .ok token => .claimed request firstPair token peer
  | .error refusal => .unlocking request (.error refusal)

def stagedFirstPair (request : PairRequest) (token : Record) (nowIso writeId : String)
    : StagedPair where
  peer := firstPairPeerRow request nowIso writeId
  token := some token
  firstPair := true

/-- The Peer write of a pairing that holds its token. A re-pair decides on the row its
transaction reads; with no such row, and on the first-pair path, it builds a new row and
confirms before the commit that none is committed. A re-pair names a write that fails, a
first pair lets the error propagate.
-/
def tokenPairStage (request : PairRequest) (firstPair : Bool) (token : Record)
    (peer : Option PeerRow) (nowIso writeId : String) (fails : Bool)
    : Stage :=
  match firstPair, peer with
  | true, _ =>
    if fails then .unlocking request (.error .threw)
    else .confirming request token nowIso writeId
  | false, none =>
    if fails then .unlocking request (.error peerWriteFailedRefusal)
    else .confirming request token nowIso writeId
  | false, some current =>
    match rePairRefusal request current with
    | some refusal => .unlocking request (.error refusal)
    | none =>
      if fails then .unlocking request (.error peerWriteFailedRefusal)
      else .committing request {
        peer := rePairedRow request current nowIso writeId
        token := some token
        firstPair := false }

def reReadStage (request : PairRequest) (nowIso writeId : String) (fails : Bool)
    : Option PeerRow → Stage
  | none => .answered pairingTokenRequiredRefusal
  | some current =>
    match rePairRefusal request current with
    | some refusal => .answered refusal
    | none =>
      if fails then .answered .threw
      else .committing request {
        peer := rePairedRow request current nowIso writeId
        token := none
        firstPair := false }

/-- `confirmFirstPairBeforeCommit` -/
def confirmStage (request : PairRequest) (token : Record) (nowIso writeId : String)
    : Option PeerRow → Stage
  | none => .committing request (stagedFirstPair request token nowIso writeId)
  | some _ => .unlocking request (.error firstPairRowAppearedRefusal)

/-- The commit's end: the token path still holds its token's lock. -/
def committedStage (request : PairRequest) (staged : StagedPair) (resolves : Bool) : Stage :=
  match staged.token, resolves with
  | some _, true => .unlocking request (.ok staged)
  | some _, false => .unlocking request (.error .threw)
  | none, true => .readingBack request staged
  | none, false => .answered .threw

/-- The read back of the Peer row; `none` is a read that failed. -/
def peerVerdict (staged : StagedPair) (peer : Option (Option Record)) : CommittedWriteVerdict :=
  let row := staged.peer.row.toRecord
  verifyCommittedFields peer (some row)
    (if staged.firstPair then row else withoutHarperManagedFields row)

/-- After the read back of the Peer row: `confirmTokenPairAfterCommit` goes on with the token,
the no-token re-pair answers.
-/
def readPeerStage (request : PairRequest) (staged : StagedPair)
    (verdict : CommittedWriteVerdict)
    : Stage :=
  match staged.token with
  | some token => .readingToken request staged token verdict
  | none => .answered (if verdict = .shown then .succeeded else writeOutcomeUnknownResponse)

def showsConsumption (stagedToken : Record) (tokenRow : Option Record) : Bool :=
  ["pairAttemptWriteId", "consumedBy", "consumedAt"].all fun field =>
    decide (tokenRow.bind (fun row => row.get field) = stagedToken.get field)

/-- The end of `confirmTokenPairAfterCommit`; `none` is a token read that failed. -/
def readTokenAnswer (staged : StagedPair) (stagedToken : Record)
    (verdict : CommittedWriteVerdict) (token : Option (Option Record))
    : Answer :=
  let unreadable :=
    if staged.firstPair then firstPairReadBackUnconfirmedRefusal
    else firstPairCommitUnconfirmedRefusal
  match token with
  | none => unreadable
  | some tokenRow =>
    if verdict = .unreadable then unreadable
    else if verdict = .shown ∧ showsConsumption stagedToken tokenRow then .succeeded
    else firstPairCommitUnconfirmedRefusal

-- Steps

def advance (state : HubState) (request : Nat) : Option HubState :=
  match state.stage request with
  | .syncReading call =>
    some (state.goto request (syncRead call (state.peers.get call.request.instanceId)))
  | .pairReading body =>
    some (state.goto request (pairRead body (state.peers.get body.instanceId)))
  | .locking body firstPair attempt =>
    if state.tokenLock body.pairingToken = none then
      some ({
        state with
        tokenLock := Function.update state.tokenLock body.pairingToken (some request)
      }.goto request (.locked body firstPair))
    else if attempt + 1 < pairLockAttempts then
      some (state.goto request (.locking body firstPair (attempt + 1)))
    else some (state.goto request (.answered (.refused 409 "pairing_in_progress")))
  | .locked body firstPair =>
    some (state.goto request
      (.claiming body firstPair (state.tokens body.pairingToken)
        (state.peers.get body.instanceId)))
  | .confirming body token nowIso writeId =>
    some (state.goto request
      (confirmStage body token nowIso writeId (state.peers.get body.instanceId)))
  | .unlocking body outcome =>
    some ({
      state with tokenLock := Function.update state.tokenLock body.pairingToken none
    }.goto request
      (match outcome with
      | .error answer => .answered answer
      | .ok staged => .readingBack body staged))
  | _ => none

/-- The sync's last write: the row built from the copy of its first read. -/
def putPeer (state : HubState) (request : Nat) (nowIso : String) (landed resolves : Bool)
    : Option HubState :=
  match state.stage request with
  | .syncMerging call peer [] merged =>
    let row := peerUpdate peer call.lamportClock nowIso merged
    some ({
      state with peers := if landed then state.peers.put row else state.peers
    }.goto request (.answered (if resolves then .succeeded else .threw)))
  | _ => none

/-- The commit of a pairing's owned transaction: its Peer row and its token land together. -/
def commit (state : HubState) (request : Nat) (landed resolves : Bool) : Option HubState :=
  match state.stage request with
  | .committing body staged =>
    let after : HubState :=
      if landed then {
        state with
        peers := state.peers.put staged.peer.row
        tokens :=
          match staged.token with
          | none => state.tokens
          | some token => Function.update state.tokens body.pairingToken (some token) }
      else state
    some (after.goto request (committedStage body staged resolves))
  | _ => none

def hubStep (state : HubState) : HubLabel → Option HubState
  | .revoke id nowIso =>
    (state.peers.get id).map fun row =>
      { state with peers := state.peers.put (row.revoke nowIso) }
  | .arrive request body =>
    match state.stage request with
    | .idle => some (state.goto request (arrival body))
    | _ => none
  | .verified request refusal =>
    match state.stage request, refusal with
    | .syncVerifying _ _, some (status, error) | .pairVerifying _, some (status, error) =>
      some (state.goto request (.answered (.refused status error)))
    | .syncVerifying call peer, none =>
      some (state.goto request (syncVerified call peer))
    | .pairVerifying body, none => some (state.goto request (.pairReading body))
    | _, _ => none
  | .advance request => advance state request
  | .mergeEnded request outcome =>
    match state.stage request with
    | .syncMerging call peer (_ :: left) merged =>
      some (state.goto request (.syncMerging call peer left
        (if outcome = .merged then merged + 1 else merged)))
    | _ => none
  | .putPeer request nowIso landed resolves => putPeer state request nowIso landed resolves
  | .lockMissing request =>
    match state.stage request with
    | .locking _ _ 0 =>
      some (state.goto request (.answered (.refused 503 "pairing_lock_unavailable")))
    | _ => none
  | .claim request nowIso writeId =>
    match state.stage request with
    | .claiming body firstPair token peer =>
      some (state.goto request (claimStage body firstPair token peer nowIso writeId))
    | _ => none
  | .stagePeer request nowIso writeId fails =>
    match state.stage request with
    | .claimed body firstPair token peer =>
      some (state.goto request
        (tokenPairStage body firstPair token peer nowIso writeId fails))
    | .reReading body =>
      some (state.goto request
        (reReadStage body nowIso writeId fails (state.peers.get body.instanceId)))
    | _ => none
  | .commit request landed resolves => commit state request landed resolves
  | .readPeer request readable =>
    match state.stage request with
    | .readingBack body staged =>
      let peer := if readable then
          some ((state.peers.get staged.peer.row.id).map PeerRow.toRecord)
        else none
      some (state.goto request (readPeerStage body staged (peerVerdict staged peer)))
    | _ => none
  | .readToken request readable =>
    match state.stage request with
    | .readingToken body staged stagedToken verdict =>
      let token := if readable then some (state.tokens body.pairingToken) else none
      some (state.goto request
        (.answered (readTokenAnswer staged stagedToken verdict token)))
    | _ => none

def hub : System HubState HubLabel where
  initial state :=
    (∀ request, state.stage request = .idle) ∧ ∀ token, state.tokenLock token = none
  step := hubStep

end Flair.Federation
