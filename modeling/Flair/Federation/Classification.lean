import Flair.Federation.SkipReasons
import Flair.Foundations.IsoTime
import Flair.Foundations.Objects

/-! Records offered by a peer and the structural checks on them that read no table but the
local row. Follows `resources/federation-classify.ts`.
-/

namespace Flair.Federation

open Dynamic

/-- `SyncRecord`; `none` in an optional field is a field the wire omits. -/
structure SyncRecord where
  table : String
  id : String
  data : Record
  updatedAt : Option String
  originatorInstanceId : Option String
  signature : Option String
  principalId : Option Value
  v : Option Rat
deriving DecidableEq

/-- `FederationSyncTable`. -/
inductive SyncTable where
  | memory
  | soul
  | agent
  | relationship
  | message
  | presence
deriving DecidableEq

namespace SyncTable

def name : SyncTable → String
  | memory => "Memory"
  | soul => "Soul"
  | agent => "Agent"
  | relationship => "Relationship"
  | message => "Message"
  | presence => "Presence"

/-- `FEDERATION_TABLE_POLICY[table].principalOwning`. -/
def principalOwning : SyncTable → Bool
  | memory | message => true
  | soul | agent | relationship | presence => false

/-- `principalOwnerField`. -/
def ownerField : SyncTable → String
  | message => "from"
  | _ => "agentId"

/-- Membership in `knownTables`, as the table of that name. -/
def ofName : String → Option SyncTable
  | "Memory" => some memory
  | "Soul" => some soul
  | "Agent" => some agent
  | "Relationship" => some relationship
  | "Message" => some message
  | "Presence" => some presence
  | _ => none

@[simp] theorem ofName_name (table : SyncTable) : ofName table.name = some table := by
  cases table <;> rfl

theorem name_of_ofName {text : String} {table : SyncTable} (h : ofName text = some table)
    : table.name = text := by
  unfold ofName at h
  split at h <;> cases h <;> rfl

end SyncTable

/-- The names every object inherits: they are `in` the table map but name no table. -/
def inheritedNames : List String :=
  ["constructor", "__defineGetter__", "__defineSetter__", "hasOwnProperty", "__lookupGetter__",
    "__lookupSetter__", "isPrototypeOf", "propertyIsEnumerable", "toString", "valueOf",
    "__proto__", "toLocaleString"]

/-- `recordSignatureVersion`: an absent version is 1. -/
def recordSignatureVersion (record : SyncRecord) : Rat := record.v.getD 1

/-- The record's `principalId` when it is a string of at least one character. -/
def principalText (record : SyncRecord) : Option String :=
  match record.principalId with
  | some (.str text) => if text = "" then none else some text
  | _ => none

def checkPrincipalEntitlement (record : SyncRecord) (table : SyncTable)
    (enforceV1Principal : Bool)
    : Option SkipReason :=
  if !table.principalOwning then none
  else if 2 ≤ recordSignatureVersion record then
    match principalText record with
    | none => some .principalMismatch
    | some principal =>
      if record.data.get table.ownerField = some (.str principal) then none
      else some .principalMismatch
  else if enforceV1Principal && (principalText record).isNone then some .principalMismatch
  else none

def federationPointerFields : List String :=
  ["hostSource", "hostSourceScope", "hostSourceVisibility"]

def inboundCarriesPointer (data : Record) : Bool :=
  federationPointerFields.any data.has

/-- `row.updatedAt ?? ""`: the stored column holds a string or nothing. -/
def storedUpdatedAt (row : Record) : String := (asString (row.get "updatedAt")).getD ""

/-- `remote.updatedAt ?? ""`. -/
def SyncRecord.updatedAtText (record : SyncRecord) : String := record.updatedAt.getD ""

def noOpSameHash (record : SyncRecord) (localRow : Record) : Bool :=
  truthy (localRow.get "contentHash")
  && truthy (record.data.get "contentHash")
  && strictEquals (localRow.get "contentHash") (record.data.get "contentHash")
  && match record.updatedAt with
      | none => false
      | some updatedAt => decide (¬ textLt (storedUpdatedAt localRow) updatedAt)

/-- The record's stamp lies past the receiver's clock by more than five minutes. -/
def fromTheFuture (record : SyncRecord) (now : Int) : Bool :=
  match record.updatedAt, IsoTime.toISOString (now + 5 * 60 * 1000) with
  | some updatedAt, some limit => decide (textLt limit updatedAt)
  | _, _ => false

/-- `classifyRecord` for a known table: the record's originator, or why it is skipped. -/
def classifyRecord (record : SyncRecord) (peerRole receiverInstanceId : String)
    (localRow : Option Record) (now : Int)
    : Except SkipReason String :=
  let originator := record.originatorInstanceId.getD receiverInstanceId
  if inboundCarriesPointer record.data then .error .pointerNotFederated
  else if originator ≠ receiverInstanceId ∧ peerRole ≠ "hub" then .error .nonOriginator
  else if fromTheFuture record now then .error .futureTimestamp
  else
    match localRow with
    | none => .ok originator
    | some row => if noOpSameHash record row then .error .noOpSameHash else .ok originator

end Flair.Federation
