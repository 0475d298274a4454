import Flair.Foundations.IsoTime
import Flair.Foundations.Objects
import Flair.Foundations.Text

/-! The Peer and PairingToken rows of a hub and the pure parts of the handlers that write
them: the rows a pairing and a sync store, and the check of a one-time pairing token.
Follows `resources/Federation.ts`.
-/

namespace Flair.Federation

open Dynamic

-- Peer rows

structure PeerRow where
  id : String
  fields : Record
deriving DecidableEq

namespace PeerRow

def status (row : PeerRow) : Option Value := row.fields.get "status"

def publicKey (row : PeerRow) : Option Value := row.fields.get "publicKey"

/-- The row holds the operator's decision to cut the peer off. -/
abbrev Revoked (row : PeerRow) : Prop := row.status = some (.str "revoked")

def toRecord (row : PeerRow) : Record := row.fields.set "id" (.str row.id)

def revoke (row : PeerRow) (nowIso : String) : PeerRow :=
  { row with
    fields := (row.fields.set "status" (.str "revoked")).set "updatedAt" (.str nowIso) }

@[simp] theorem revoke_id (row : PeerRow) (nowIso : String) : (row.revoke nowIso).id = row.id :=
  rfl

@[simp] theorem revoke_revoked (row : PeerRow) (nowIso : String)
    : (row.revoke nowIso).Revoked := by
  simp [Revoked, status, revoke]

@[simp] theorem revoke_publicKey (row : PeerRow) (nowIso : String)
    : (row.revoke nowIso).publicKey = row.publicKey := by
  simp [publicKey, revoke]

end PeerRow

/-- The committed Peer rows: the fields of the row under each primary key. -/
abbrev PeerTable := String → Option Record

namespace PeerTable

/-- `Peer.get(id)` -/
def get (peers : PeerTable) (id : String) : Option PeerRow := (peers id).map (PeerRow.mk id)

/-- `Peer.put(row)` -/
def put (peers : PeerTable) (row : PeerRow) : PeerTable :=
  Function.update peers row.id (some row.fields)

@[simp] theorem get_put (peers : PeerTable) (row : PeerRow) (id : String)
    : (peers.put row).get id = if id = row.id then some row else peers.get id := by
  by_cases same : id = row.id
  · subst same
    simp [get, put]
  · simp [get, put, same]

theorem id_of_get {peers : PeerTable} {id : String} {row : PeerRow}
    (h : peers.get id = some row)
    : row.id = id := by
  obtain ⟨fields, -, rfl⟩ := Option.map_eq_some_iff.mp h
  rfl

def Revoked (peers : PeerTable) (id : String) : Prop :=
  ∃ row, peers.get id = some row ∧ row.Revoked

end PeerTable

/-- Assign a field that may be `undefined`; an absent field reads as `undefined`. -/
def setOptional (record : Record) (field : String) : Option Value → Record
  | none => record.delete field
  | some value => record.set field value

/-- `left ?? right` -/
def orNullish (left right : Option Value) : Option Value :=
  if isNullish left then right else left

/-- The fields of a sync's `peerUpdate`: the earlier copy of the row with this contact's
stamps, and the progress stamp when records were merged.
-/
def peerUpdate (peer : PeerRow) (lamportClock : Option String) (nowIso : String)
    (merged : Nat)
    : PeerRow :=
  let contact :=
    (((peer.fields.set "lastSyncAt" (.str nowIso)).set "lastSyncCursor"
      (.str (lamportClock.getD nowIso))).set "status" (.str "connected")).set "updatedAt"
        (.str nowIso)
  { peer with
    fields := if 0 < merged then contact.set "lastMergeAt" (.str nowIso) else contact }

@[simp] theorem peerUpdate_id (peer : PeerRow) (lamportClock : Option String)
    (nowIso : String) (merged : Nat)
    : (peerUpdate peer lamportClock nowIso merged).id = peer.id := rfl

theorem peerUpdate_status (peer : PeerRow) (lamportClock : Option String) (nowIso : String)
    (merged : Nat)
    : (peerUpdate peer lamportClock nowIso merged).status = some (.str "connected") := by
  unfold peerUpdate PeerRow.status
  split <;> simp

-- Pairing requests

/-- A pairing request: its body, and the authenticated user it came with. An absent text of
the body is empty.
-/
structure PairRequest where
  instanceId : String
  publicKey : String
  role : Option Value
  endpoint : Option Value
  signature : String
  pairingToken : String
  tpsAgent : String
  tpsAgentIsAdmin : Bool

structure PairedRow where
  row : PeerRow
  paired : row.status = some (.str "paired")

theorem PairedRow.not_revoked (staged : PairedRow) : ¬ staged.row.Revoked := by
  simp [PeerRow.Revoked, staged.paired]

/-- `firstPairPeerRow` with the attempt's marker: the row a first-time pair builds without
an earlier row.
-/
def firstPairPeerRow (request : PairRequest) (nowIso pairAttemptWriteId : String)
    : PairedRow where
  row := {
    id := request.instanceId
    fields := Record.ofFields [
      ("publicKey", .str request.publicKey),
      ("role", (orNullish request.role (some (.str "spoke"))).getD .null),
      ("endpoint", (orNullish request.endpoint (some .null)).getD .null),
      ("status", .str "paired"),
      ("relayOnly", .bool false),
      ("pairedAt", .str nowIso),
      ("createdAt", .str nowIso),
      ("updatedAt", .str nowIso),
      ("pairAttemptWriteId", .str pairAttemptWriteId)] }
  paired := by simp [PeerRow.status, Record.ofFields]

/-- `rePairedRow` with the attempt's marker: the re-read row, paired again. -/
def rePairedRow (request : PairRequest) (base : PeerRow) (nowIso pairAttemptWriteId : String)
    : PairedRow where
  row := {
    base with
    fields :=
      (((setOptional base.fields "endpoint"
          (orNullish request.endpoint (base.fields.get "endpoint"))).set "status"
        (.str "paired")).set "updatedAt" (.str nowIso)).set "pairAttemptWriteId"
          (.str pairAttemptWriteId) }
  paired := by simp [PeerRow.status]

@[simp] theorem firstPairPeerRow_id (request : PairRequest) (nowIso writeId : String)
    : (firstPairPeerRow request nowIso writeId).row.id = request.instanceId := rfl

@[simp] theorem rePairedRow_id (request : PairRequest) (base : PeerRow)
    (nowIso writeId : String)
    : (rePairedRow request base nowIso writeId).row.id = base.id := rfl

-- Pairing tokens

/-- `new Date(text)` as an instant, for the text of a timestamp; `none` is `NaN`. -/
def instantOf (text : String) : Option Int :=
  (IsoTime.readTimestamp text).bind IsoTime.Parts.instant

/-- `token.expiresAt && new Date(token.expiresAt) < new Date()`. A comparison with `NaN` is
false.
-/
def tokenExpired (token : Record) (nowIso : String) : Bool :=
  match (asString (token.get "expiresAt")).bind instantOf, instantOf nowIso with
  | some expiry, some now => decide (expiry < now)
  | _, _ => false

def bootstrapUser (pairingToken : String) : List Nat :=
  utf16Units "pair-bootstrap-" ++ (utf16Units pairingToken).take 8

def bootstrapMismatch (request : PairRequest) : Bool :=
  !request.tpsAgentIsAdmin && request.tpsAgent != ""
    && decide (utf16Units request.tpsAgent ≠ bootstrapUser request.pairingToken)

inductive PairingTokenClaim where
  | consumed (token : Record)
  | refused
  | bootstrapMismatch

/-- `consumePairingToken` on the token row read in the owned transaction: what the claim
stages.
-/
def consumePairingToken (request : PairRequest) (stored : Option Record)
    (nowIso pairAttemptWriteId : String)
    : PairingTokenClaim :=
  match stored with
  | none => .refused
  | some token =>
    if truthy (token.get "consumedBy") then .refused
    else if tokenExpired token nowIso then .refused
    else if bootstrapMismatch request then .bootstrapMismatch
    else .consumed (((token.set "consumedBy" (.str request.instanceId)).set "consumedAt"
      (.str nowIso)).set "pairAttemptWriteId" (.str pairAttemptWriteId))

end Flair.Federation
