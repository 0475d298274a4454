import Flair.Federation.Classification
import Flair.Foundations.Text

/-! Receive-side rules for Presence records: the home binding, the validation of a receipt
and its merge by heartbeat and activity stamp. Follows `resources/presence-receipt.ts`.
-/

namespace Flair.Federation

open Dynamic

def presenceActivities : List String := ["coding", "reviewing", "planning", "debugging", "idle"]

def presenceCurrentTaskMaxLength : Nat := 200

def presenceVersionMaxLength : Nat := 64

/-- `PRESENCE_FUTURE_ALLOWANCE_MS`. -/
def presenceFutureAllowance : Rat := 5 * 60 * 1000

/-- `text.slice(0, limit)` in UTF-16 code units; a character that would be cut is left out. -/
def takeCodeUnits : (limit : Nat) → List Char → List Char
  | _, [] => []
  | limit, c :: rest =>
    let width := codeUnitCount (String.ofList [c])
    if width ≤ limit then c :: takeCodeUnits (limit - width) rest else []

def sanitizePresenceCurrentTask (task : Option Value) : Value :=
  match asString task with
  | none => .null
  | some text =>
    if trim text = "" then .null
    else .str (String.ofList (takeCodeUnits presenceCurrentTaskMaxLength (trim text).toList))

/-- `finiteNumber`: every number of a JSON value is finite. -/
def finiteNumber : Option Value → Option Rat
  | some (.num amount) => some amount
  | _ => none

def decimalText (text : String) : Option Rat :=
  (trim text).toInt?.map (fun amount => (amount : Rat))

/-- `presenceMs`: a stored stamp, which the store may hand back as decimal text. -/
def presenceMs : Option Value → Option Rat
  | some (.num amount) => some amount
  | some (.str text) => decimalText text
  | _ => none

/-- `presenceVersion`: a version text within its cap. -/
def presenceVersion (value : Option Value) : Value :=
  match asString value with
  | some text => if codeUnitCount text ≤ presenceVersionMaxLength then .str text else .null
  | none => .null

def numOrNull (amount : Option Rat) : Value := (amount.map Value.num).getD .null

/-- `presenceHomeBindingReason`: the row's home must be the batch-verified sender. -/
def presenceHomeBindingReason (agentRow : Option Record) (sender : String) : Option SkipReason :=
  match agentRow with
  | none => some .presenceAgentNotReplicated
  | some row =>
    match row.get "originatorInstanceId" with
    | some (.str home) =>
      if home ≠ "" ∧ home = sender then none else some .presenceAgentHomedElsewhere
    | _ => some .presenceAgentHomedElsewhere

def receiptActivityStamp (data : Record) (receivedAt : Rat) : Except SkipReason (Option Rat) :=
  if isNullish (data.get "activityUpdatedAt") then .ok none
  else
    match finiteNumber (data.get "activityUpdatedAt") with
    | none => .error .presenceInvalidShape
    | some stamp =>
      if receivedAt + presenceFutureAllowance < stamp then .error .presenceFutureTimestamp
      else .ok (some stamp)

def validActivity (activity : Option Value) : Bool :=
  isNullish activity
  || match asString activity with
      | some text => decide (text ∈ presenceActivities)
      | none => false

def receiptRow (agentId : String) (data : Record) (heartbeat : Rat) (activityStamp : Option Rat)
    (sender : String) (receivedAt : Rat)
    : Record :=
  let row := Record.ofFields [
    ("agentId", .str agentId),
    ("lastHeartbeatAt", .num heartbeat),
    ("currentTask", sanitizePresenceCurrentTask (data.get "currentTask")),
    ("activityUpdatedAt", numOrNull activityStamp),
    ("flairVersion", presenceVersion (data.get "flairVersion")),
    ("harperVersion", presenceVersion (data.get "harperVersion")),
    ("originatorInstanceId", .str sender),
    ("receivedAt", .num receivedAt)
  ]
  match asString (data.get "activity") with
  | some activity => row.set "activity" (.str activity)
  | none => row

def validatePresenceReceipt (recordId : String) (data : Record) (receivedAt : Rat)
    (sender : String)
    : Except SkipReason Record :=
  if recordId = "" ∨ data.get "agentId" ≠ some (.str recordId) then .error .presenceInvalidShape
  else
    match finiteNumber (data.get "lastHeartbeatAt") with
    | none => .error .presenceInvalidShape
    | some heartbeat =>
      if receivedAt + presenceFutureAllowance < heartbeat then .error .presenceFutureTimestamp
      else if !validActivity (data.get "activity") then .error .presenceInvalidShape
      else
        (receiptActivityStamp data receivedAt).map fun activityStamp =>
          receiptRow recordId data heartbeat activityStamp sender receivedAt

/-- `mergePresenceReceipt`: the heartbeat decides, then the activity stamp. -/
def mergePresenceReceipt (localRow : Option Record) (incoming : Record) (receivedAt : Rat)
    : Except SkipReason Record :=
  let field (name : String) := localRow.bind (fun row => row.get name)
  let incHb := (finiteNumber (incoming.get "lastHeartbeatAt")).getD 0
  let incAut := presenceMs (incoming.get "activityUpdatedAt")
  let localHb := presenceMs (field "lastHeartbeatAt")
  let localAut := presenceMs (field "activityUpdatedAt")
  let older :=
    match localHb with
    | none => false
    | some hb => decide (incHb < hb)
  let tied := decide (localHb = some incHb)
  let staleTie :=
    match localAut, incAut with
    | some stored, some offered => tied && decide (offered < stored)
    | _, _ => false
  if older || staleTie then .error .presenceStaleHeartbeat
  else
    let strictlyNewer :=
      match incAut, localAut with
      | none, _ => false
      | some _, none => true
      | some offered, some stored => decide (stored < offered)
    let keepStoredActivity := tied && !strictlyNewer
    let activityUpdatedAt :=
      if keepStoredActivity then localAut
      else
        match incAut, localAut with
        | none, _ => localAut
        | some offered, none => some offered
        | some offered, some stored => some (if offered ≤ stored then stored else offered)
    let storedActivity := asString (field "activity")
    let offeredActivity := asString (incoming.get "activity")
    let activity :=
      if keepStoredActivity then (storedActivity.or offeredActivity).getD "idle"
      else (offeredActivity.or storedActivity).getD "idle"
    let currentTask :=
      if keepStoredActivity then (field "currentTask").getD .null
      else (incoming.get "currentTask").getD .null
    .ok (Record.ofFields [
      ("agentId", (incoming.get "agentId").getD .null),
      ("lastHeartbeatAt", .num incHb),
      ("currentTask", currentTask),
      ("activity", .str activity),
      ("activityUpdatedAt", numOrNull activityUpdatedAt),
      ("flairVersion", (incoming.get "flairVersion").getD .null),
      ("harperVersion", (incoming.get "harperVersion").getD .null),
      ("originatorInstanceId", (incoming.get "originatorInstanceId").getD .null),
      ("receivedAt", .num receivedAt)
    ])

end Flair.Federation
