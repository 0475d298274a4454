import Mathlib.Algebra.Order.Ring.Unbundled.Rat
import Flair.Foundations.KeyLedger
import Flair.Foundations.Systems
import Flair.Relay.MessageStates
import Flair.Relay.Requests
import Flair.WriteBack.StoredRows

/-! Any number of `relaySend` calls over one Message table and its per-key locks, one
transition for each awaited step of a call. Follows `resources/relay-ops.ts`.
-/

namespace Flair.Relay

open Dynamic KeyLedger Transition

-- Answers

inductive SendAnswer where
  | refused (status : Nat) (body : List (String × String))
  | threw
  | accepted (view : Record)
deriving DecidableEq

inductive CapScope where
  | recipient
  | sender
deriving DecidableEq

def CapScope.text : CapScope → String
  | .recipient => "recipient"
  | .sender => "sender"

def badRequest (error : String) : SendAnswer := .refused 400 [("error", error)]

def forbidden (error : String) : SendAnswer := .refused 403 [("error", error)]

def seqConflict (error : String) : SendAnswer :=
  .refused 409 [("error", error), ("reason", "seq_conflict")]

def inboxFull (scope : CapScope) : SendAnswer :=
  .refused 429 [("error", "inbox full"), ("reason", "inbox_full"), ("scope", scope.text)]

def sendBusy : SendAnswer :=
  .refused 409 [("error", "send in progress"), ("reason", "send_contended")]

def sendLockUnavailable : SendAnswer :=
  .refused 503 [("error", "send lock unavailable"),
    ("message", "the Message store has no per-key lock; the send was refused")]

def ownerMutationRefusal (table : String) : SendAnswer :=
  forbidden ("forbidden: cannot modify " ++ table ++ " owned by another principal")

/-- `isForbiddenOwnerMutation` of a stored row. -/
def isForbiddenOwnerMutation (row : Record) (ownerField callerAgentId : String) : Bool :=
  let owner := row.get ownerField
  isNullish owner || decide (owner = some (.str ""))
    || decide (owner ≠ some (.str callerAgentId))

def acceptedView (row : Record) : SendAnswer :=
  .accepted (row.filter fun field _ =>
    decide (field ∈ ["id", "orgScope", "from", "to", "threadId", "seq", "kind", "createdAt",
      "contentHash", "state", "deliveredAt"]))

-- The checks before any lock

def requiredSendFields : List String :=
  ["id", "from", "to", "threadId", "kind", "body", "createdAt", "signature"]

/-- The field is absent, `null` or the empty text. -/
def missing (content : Record) (field : String) : Bool :=
  isNullish (content.get field) || decide (content.get field = some (.str ""))

def isSeq : Option Value → Bool
  | some (.num amount) => decide (amount.den = 1 ∧ 0 ≤ amount)
  | _ => false

def badDeadline : Option Value → Bool
  | none | some .null => false
  | some (.str text) => (deadlineInstant (.str text)).isNone
  | some _ => true

/-- The checks of a send before anything is awaited: why it is refused, when it is. -/
def sendRefusal (auth : AgentAuthVerdict) (content : Record) : Option SendAnswer :=
  if auth = .anonymous then some (.refused 401 [("error", "authentication required")])
  else
    match requiredSendFields.find? (missing content) with
    | some field => some (badRequest ("missing required field: " ++ field))
    | none =>
      if !isSeq (content.get "seq") then
        some (badRequest "seq must be a non-negative integer")
      else if badDeadline (content.get "deadline") then
        some (badRequest "deadline must be a valid ISO-8601 timestamp")
      else
        match auth with
        | .agent agentId false =>
          if content.get "from" ≠ some (.str agentId) then
            some (forbidden "forbidden: `from` must match the authenticated agent")
          else none
        | _ => none

def verifyRefusal (signing : Signing) (org : Option String) (publicKey : Option String)
    (content : Record)
    : Option SendAnswer :=
  if content.get "orgScope" ≠ some (.str (org.getD "local")) then
    some (forbidden "forbidden: orgScope is server-resolved, not settable from the body")
  else
    match publicKey with
    | none | some "" => some (forbidden "forbidden: unknown sender principal")
    | some key =>
      (verifyMessageSignature signing content key).map fun reason =>
        badRequest ("signature: " ++ reason)

-- The decision under the locks

abbrev MessageTable := AList fun _ : String => Record

def MessageTable.rows (table : MessageTable) : List Record := table.entries.map Sigma.snd

structure Caps where
  inbox : Nat
  perSender : Nat

/-- `capDecision`: the scope at its cap, the sender's first. -/
def capDecision (recipientUnconsumed senderUnconsumed : Nat) (caps : Caps) : Option CapScope :=
  if caps.perSender ≤ senderUnconsumed then some .sender
  else if caps.inbox ≤ recipientUnconsumed then some .recipient
  else none

def inInbox (recipient : Option Value) (row : Record) : Bool :=
  decide (row.get "to" = recipient) && isUnconsumed (row.get "state")

def inThread (sender threadId : Option Value) (row : Record) : Bool :=
  decide (row.get "from" = sender ∧ row.get "threadId" = threadId)

def maxSeq (prevMaxSeq : Rat) (row : Record) : Rat :=
  match row.get "seq" with
  | some (.num seq) => if prevMaxSeq < seq then seq else prevMaxSeq
  | _ => prevMaxSeq

/-- The thread's last `seq`, `-1` when it has none. -/
def prevMaxSeq (rows : List Record) : Rat := rows.foldl maxSeq (-1)

def isDuplicate (content row : Record) : Bool :=
  decide (row.get "from" = content.get "from" ∧ row.get "to" = content.get "to"
    ∧ row.get "contentHash" = content.get "contentHash")

/-- The row a send stores: the content without its lifecycle fields, delivered now. -/
def deliveredRow (content : Record) (now : String) : Record :=
  let clean := ["state", "consumedAt", "failureReason", "deliveredAt"].foldl Record.delete content
  ((clean.set "kind" ((content.get "kind").getD (.str "message"))).set "state" delivered).set
    "deliveredAt" (.str now)

inductive SendDecision where
  | answer (answer : SendAnswer)
  | store (row : Record)

/-- The decision of `storeAndDeliver` for an id that is not stored. -/
def decideNew (caps : Caps) (content : Record) (snapshot : MessageTable) (now : String)
    : SendDecision :=
  let recipientRows := snapshot.rows.filter fun row => row.get "to" = content.get "to"
  match recipientRows.find? (isDuplicate content) with
  | some row => .answer (acceptedView row)
  | none =>
    let threadRows := snapshot.rows.filter
      (inThread (content.get "from") (content.get "threadId"))
    let last := prevMaxSeq threadRows
    match content.get "seq" with
    | some (.num seq) =>
      if seq ≤ last then
        .answer (seqConflict ("seq " ++ WriteBack.idText (some (.num seq))
          ++ " is not ahead of the last seq (" ++ WriteBack.idText (some (.num last))
          ++ ") for this (from, threadId)"))
      else
        let unconsumed := recipientRows.filter (inInbox (content.get "to"))
        let own := unconsumed.filter fun row => row.get "from" = content.get "from"
        match capDecision unconsumed.length own.length caps with
        | some scope => .answer (inboxFull scope)
        | none => .store (deliveredRow content now)
    | _ => .answer .threw

/-- The decision of `storeAndDeliver` on its transaction's snapshot. -/
def decideSend (caps : Caps) (content : MessageEnvelope) (snapshot : MessageTable)
    (now : String) (searchable : Bool)
    : SendDecision :=
  match snapshot.lookup (content.text "id") with
  | some row =>
    if isForbiddenOwnerMutation row "from" (content.text "from") then
      .answer (ownerMutationRefusal "Message")
    else .answer (acceptedView row)
  | none =>
    if searchable then decideNew caps content.fields snapshot now else .answer .threw

-- Calls

/-- A send lock: of a message id, of a recipient's inbox, or of a sender. -/
inductive SendKey where
  | id (id : String)
  | recipient (recipient : String)
  | sender (sender : String)
deriving DecidableEq

def sendKeys (content : MessageEnvelope) : List SendKey :=
  [.id (content.text "id"), .recipient (content.text "to"), .sender (content.text "from")]

def sendLockAttempts : Nat := 200

/-- Where a call is between two of its awaited steps. `taken` lists the keys it holds, the
latest first.
-/
inductive SendStage where
  | idle
  | verifying (content : MessageEnvelope)
  | locking (content : MessageEnvelope) (taken left : List SendKey) (attempt : Nat)
  | opened (content : MessageEnvelope)
  | deciding (content : MessageEnvelope) (snapshot : MessageTable)
  | storing (content : MessageEnvelope) (row : Record)
  | releasing (taken : List SendKey) (answer : SendAnswer)
  | answered (answer : SendAnswer)

structure SendState where
  table : MessageTable
  ledger : Ledger SendKey Nat
  stage : Nat → SendStage

inductive SendLabel where
  | post (caller : Nat) (auth : AgentAuthVerdict) (content : MessageEnvelope)
  | verify (caller : Nat) (org publicKey : Option String)
  | lockMissing (caller : Nat)
  | take (caller : Nat)
  | readId (caller : Nat) (readable : Bool)
  | decide (caller : Nat) (now : String) (searchable : Bool)
  | commit (caller : Nat) (landed resolves : Bool)
  | release (caller : Nat)

def SendState.goto (state : SendState) (caller : Nat) (stage : SendStage) : SendState :=
  { state with stage := Function.update state.stage caller stage }

def releaseStage (taken : List SendKey) (answer : SendAnswer) : SendStage :=
  match taken with
  | [] => .answered answer
  | _ => .releasing taken answer

def allTaken (content : MessageEnvelope) : List SendKey := (sendKeys content).reverse

/-- The next key to take, or the transaction once all are held. -/
def lockedStage (content : MessageEnvelope) (taken left : List SendKey) : SendStage :=
  match left with
  | [] => .opened content
  | _ => .locking content taken left 0

/-- One `tryLock`; a key that stays held gives up the keys taken before it. -/
def takeKey (state : SendState) (caller : Nat) : Option SendState :=
  match state.stage caller with
  | .locking content taken (key :: left) attempt =>
    match state.ledger.tryLock caller key with
    | some ledger =>
      some ({ state with ledger }.goto caller (lockedStage content (key :: taken) left))
    | none =>
      some (state.goto caller
        (if attempt + 1 < sendLockAttempts then
          .locking content taken (key :: left) (attempt + 1)
        else releaseStage taken sendBusy))
  | _ => none

def decidedStage (content : MessageEnvelope) : SendDecision → SendStage
  | .answer answer => .releasing (allTaken content) answer
  | .store row => .storing content row

def sendStep (signing : Signing) (caps : Caps) (state : SendState)
    : SendLabel → Option SendState
  | .post caller auth content =>
    match state.stage caller with
    | .idle =>
      some (state.goto caller
        (match sendRefusal auth content.fields with
        | some answer => .answered answer
        | none => .verifying content))
    | _ => none
  | .verify caller org publicKey =>
    match state.stage caller with
    | .verifying content =>
      some (state.goto caller
        (match verifyRefusal signing org publicKey content.fields with
        | some answer => .answered answer
        | none => .locking content [] (sendKeys content) 0))
    | _ => none
  | .lockMissing caller =>
    match state.stage caller with
    | .locking _ [] _ 0 => some (state.goto caller (.answered sendLockUnavailable))
    | _ => none
  | .take caller => takeKey state caller
  | .readId caller readable =>
    match state.stage caller with
    | .opened content =>
      some (state.goto caller
        (if readable then .deciding content state.table
          else .releasing (allTaken content) (ownerMutationRefusal "Message")))
    | _ => none
  | .decide caller now searchable =>
    match state.stage caller with
    | .deciding content snapshot =>
      some (state.goto caller
        (decidedStage content (decideSend caps content snapshot now searchable)))
    | _ => none
  | .commit caller landed resolves =>
    match state.stage caller with
    | .storing content row =>
      let table := if landed then state.table.insert (content.text "id") row else state.table
      some ({ state with table }.goto caller
        (.releasing (allTaken content) (if resolves then acceptedView row else .threw)))
    | _ => none
  | .release caller =>
    match state.stage caller with
    | .releasing (key :: rest) answer =>
      some ({ state with ledger := state.ledger.unlock caller key }.goto caller
        (releaseStage rest answer))
    | _ => none

end Flair.Relay
