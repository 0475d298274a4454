import Flair.Foundations.Objects

/-! A relay request: who it comes from, and the message envelope it posts. Follows
`resources/agent-auth.ts` and `resources/relay-lib.ts`.
-/

namespace Flair.Relay

open Dynamic

inductive AgentAuthVerdict where
  | internal
  | agent (agentId : String) (isAdmin : Bool)
  | anonymous
deriving DecidableEq

/-- The fields of a `MessageEnvelope` that are texts. -/
def envelopeTexts : List String :=
  ["id", "orgScope", "from", "to", "threadId", "kind", "body", "createdAt", "deadline",
    "inReplyTo", "parentContentHash", "state", "deliveredAt", "consumedAt", "failureReason",
    "contentHash", "senderModel", "senderProvider", "senderRunId", "signature"]

def isText : Option Value → Bool
  | none | some .null | some (.str _) => true
  | _ => false

/-- `MessageEnvelope`: its texts may be absent or `null`; the type of `seq` is checked by the
send.
-/
structure MessageEnvelope where
  fields : Record
  texts : ∀ field ∈ envelopeTexts, isText (fields.get field) = true

/-- `String(content.field)` of a text that is present. -/
def MessageEnvelope.text (content : MessageEnvelope) (field : String) : String :=
  (asString (content.fields.get field)).getD ""

/-- `pick`: the named fields that are neither absent nor `null`. -/
def pick (record : Record) (fields : List String) : Record :=
  record.filter fun field value => decide (field ∈ fields ∧ value ≠ .null)

def contentHashFields : List String :=
  ["from", "to", "threadId", "seq", "kind", "body", "orgScope", "deadline", "inReplyTo",
    "parentContentHash", "senderModel", "senderProvider", "senderRunId"]

def signedBodyFields : List String :=
  ["id", "from", "to", "threadId", "seq", "kind", "body", "orgScope", "deadline", "inReplyTo",
    "parentContentHash", "createdAt", "contentHash", "senderModel", "senderProvider",
    "senderRunId"]

/-- The digest and the signature scheme a relay verifies with: SHA-256 of the canonical
text of a body, and a body's signature under a pinned key.
-/
structure Signing where
  digest : Record → String
  verifyBodySignature : Record → String → Bool

def computeContentHash (signing : Signing) (content : Record) : String :=
  signing.digest (pick content contentHashFields)

/-- `verifyMessageSignature`: why the envelope is refused, when it is. -/
def verifyMessageSignature (signing : Signing) (content : Record) (publicKey : String)
    : Option String :=
  match content.get "signature" with
  | none => some "missing_signature"
  | some signature =>
    if !truthy (some signature) then some "missing_signature"
    else if content.get "contentHash" ≠ some (.str (computeContentHash signing content)) then
      some "content_hash_mismatch"
    else if signing.verifyBodySignature
        ((pick content signedBodyFields).set "signature" signature) publicKey then none
    else some "invalid_signature"

end Flair.Relay
