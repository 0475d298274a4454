import Flair.Federation.Classification
import Flair.Foundations.Text

/-! What an inbound Agent record may not change: administrator state, lifecycle status, a
pending key, and the key and home of an agent homed elsewhere. Follows
`resources/federation-classify.ts`, `resources/agent-admin.ts` and
`resources/agent-status-guard.ts`.
-/

namespace Flair.Federation

open Dynamic

/-- `ADMIN_ROLE`, as a stored value. -/
def adminRole : Value := .str "admin"

/-- `agentRecordIsAdmin`; an absent row is no administrator. -/
def agentRecordIsAdmin (row : Option Record) : Bool :=
  decide (row.bind (fun row => row.get "role") = some adminRole)

/-- `configuredAdminAgentIds`: the ids the environment variable names. -/
def configuredAdminAgentIds (raw : Option String) : List String :=
  ((splitAtChar ',' (raw.getD "")).map trim).filter (fun id => id ≠ "")

/-- `effectiveAgentStatus`: a missing status is active. -/
def effectiveAgentStatus (status : Option Value) : Value := status.getD (.str "active")

/-- `inboundChangesExistingPrincipalStatus`, for an Agent record. -/
def inboundChangesExistingPrincipalStatus (record : SyncRecord) (localRow : Option Record)
    : Bool :=
  match localRow with
  | none => false
  | some row =>
    !strictEquals (some (effectiveAgentStatus (record.data.get "status")))
      (some (effectiveAgentStatus (row.get "status")))

/-- `PENDING_PUBLIC_KEY`, as a stored value. -/
def pendingPublicKey : Value := .str "pending"

/-- `inboundChangesExistingPendingKey`, for an Agent record. -/
def inboundChangesExistingPendingKey (record : SyncRecord) (localRow : Option Record) : Bool :=
  match localRow with
  | none => false
  | some row =>
    decide (row.get "publicKey" = some pendingPublicKey)
    && record.data.has "publicKey"
    && !strictEquals (record.data.get "publicKey") (row.get "publicKey")

/-- A missing, null or empty home all mean no recorded home. -/
def noAgentHome (home : Option Value) : Bool := isNullish home || decide (home = some (.str ""))

def sameAgentHome (left right : Option Value) : Bool :=
  (noAgentHome left && noAgentHome right) || strictEquals left right

/-- `senderIsAgentHome`: the batch-verified sender is the row's recorded home. -/
def senderIsAgentHome (localRow : Option Record) (sender : String) : Bool :=
  match localRow.bind (fun row => row.get "originatorInstanceId") with
  | some (.str home) => decide (home ≠ "" ∧ home = sender)
  | _ => false

/-- `inboundChangesAgentIdentity`, for an Agent record. -/
def inboundChangesAgentIdentity (record : SyncRecord) (localRow : Option Record) : Bool :=
  match localRow with
  | none => false
  | some row =>
    (record.data.has "publicKey"
      && !strictEquals (record.data.get "publicKey") (row.get "publicKey"))
    || (record.data.has "originatorInstanceId"
      && !sameAgentHome (record.data.get "originatorInstanceId")
        (row.get "originatorInstanceId"))

def agentIdentityRefusal (record : SyncRecord) (localRow : Option Record) (sender : String)
    : Option SkipReason :=
  if !inboundChangesAgentIdentity record localRow then none
  else if senderIsAgentHome localRow sender then none
  else some .agentIdentityNotFromHome

/-- `agentAdminIdCreateRefusal`, for an Agent record. -/
def agentAdminIdCreateRefusal (record : SyncRecord) (localRow : Option Record)
    (configuredAdminIds : List String)
    : Option SkipReason :=
  if localRow.isSome then none
  else if record.id ∈ configuredAdminIds then some .agentAdminIdNotFederated
  else none

/-- Give `field` the value `stored` has, or remove it when `stored` has none. -/
def restoreField (merged stored : Record) (field : String) : Record :=
  match stored.get field with
  | some value => merged.set field value
  | none => merged.delete field

/-- Keep the stored value of `field` when the merged row would change whether the field
holds `mark`.
-/
def keepMark (field : String) (mark : Value) (merged stored : Record) : Record :=
  if decide (merged.get field = some mark) = decide (stored.get field = some mark) then merged
  else restoreField merged stored field

/-- `keepReceiverAgentAuthority`: administrator state is the receiver's own. -/
def keepReceiverAgentAuthority (merged : Record) (stored : Option Record) : Record :=
  match stored with
  | none =>
    let merged := if merged.get "role" = some adminRole then merged.delete "role" else merged
    if merged.get "admin" = some (.bool true) then merged.set "admin" (.bool false) else merged
  | some row => keepMark "admin" (.bool true) (keepMark "role" adminRole merged row) row

end Flair.Federation
