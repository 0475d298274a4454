import Flair.Foundations.Settling
import Flair.Foundations.Systems
import Flair.Migrations.EmbeddingStamp
import Flair.Relay.Requests

/-! The re-embed of one stored row: up to three attempts that each read, stage, confirm, commit
and verify, beside other writers of the row and over a store that may drop a staged update or
withhold its result. Follows `reembedStoredRow` of `resources/Memory.ts` and
`resources/record-owner-guard.ts`.
-/

namespace Flair.Reembeds

open Dynamic Transition Migrations WriteBack
open Flair.Relay (AgentAuthVerdict)

-- Owners

def isForbiddenOwnerMutation (record : Option Record) (callerAgentId : String) : Bool :=
  record.any fun row =>
    let owner := row.get "agentId"
    isNullish owner || decide (owner = some (.str ""))
      || !strictEquals owner (some (.str callerAgentId))

def checkedAgent : AgentAuthVerdict → Option String
  | .agent agentId false => some agentId
  | _ => none

def ownerRefused (auth : AgentAuthVerdict) (record : Option Record) : Bool :=
  (checkedAgent auth).any fun agentId => isForbiddenOwnerMutation record agentId

-- Calls

def reembedWriteAttempts : Nat := 3

/-- The arguments of a call. Of its world only the model and the hash are used: the clock, the
tokens, the provider and the commits answer each attempt anew.
-/
structure ReembedCall where
  world : StampWorld
  auth : AgentAuthVerdict
  preRead : Record
  vector : Value

def notFound : PatchResponse := ⟨404, "not found"⟩

def forbidden : PatchResponse := ⟨403, "forbidden: cannot write memory owned by another agent"⟩

def noText : PatchResponse := ⟨422, "reembed_no_text"⟩

def withheldWriteResult : PatchResponse := ⟨500, "write_response_withheld"⟩

def storedRowChanged : PatchResponse := ⟨409, "stored_row_changed"⟩

def reembedRowChanged : PatchResponse := ⟨409, "reembed_row_changed"⟩

def memoryProviderTimeout : PatchResponse := ⟨503, "memory_provider_timeout"⟩

def embeddingUnavailable : PatchResponse := ⟨503, "embedding_unavailable"⟩

/-- A success reports the row's `updatedAt` and its token. -/
inductive ReembedAnswer where
  | written (updatedAt token : String)
  | refused (response : PatchResponse)
  | threw
deriving DecidableEq

/-- What one attempt stages: the row it read, the fields of its update, and the row its
read-back must find.
-/
structure ReembedWrite where
  stored : Record
  updatedAt : String
  token : String
  identity : Record
  fields : Record
deriving DecidableEq

/-- Where a call is between two of its awaited steps. -/
inductive ReembedPhase where
  | opening
  | staging (stored : Record)
  | withheld (write : ReembedWrite)
  | staged (write : ReembedWrite)
  | confirmed (write : ReembedWrite) (committed : Record)
  | verifying (write : ReembedWrite)
  | recomputing (text : String)
  | answered (answer : ReembedAnswer)
deriving DecidableEq

/-- What a call did and saw, for what is said about it. -/
inductive ReembedEvent where
  | computed (text : Option Value) (vector : Value)
  | opened (row : Option Record)
  | committed (write : ReembedWrite) (landed : Bool)
  | withheldCommitted (landed : Bool)
  | readBack (row : Option Record)
deriving DecidableEq

/-- The row, the call's variables, whether it has marked the id outcome-unknown, and its
events, the last one first.
-/
structure ReembedState where
  stored : Option Record
  textToEmbed : Option Value
  embedding : Value
  attempt : Nat
  committedUnconfirmed : Bool
  outcomeUnknown : Bool
  phase : ReembedPhase
  log : List ReembedEvent
deriving DecidableEq

/-- A staged update of the store lands or is dropped at the commit. A Response in place of its
result is withheld from the caller, and the transaction still commits. A call that throws in a
transaction has aborted it.
-/
inductive ReembedLabel where
  | other (row : Option Record)
  | read
  | stage (updatedAt newToken : String)
  | withhold (updatedAt newToken : String)
  | commit (landed : Bool)
  | provider (answer : Provider)
  | throw
deriving DecidableEq

namespace ReembedState

variable (state : ReembedState)

@[simp] def goto (phase : ReembedPhase) : ReembedState := { state with phase }

@[simp] def note (event : ReembedEvent) : ReembedState := { state with log := event :: state.log }

def answer (answer : ReembedAnswer) : ReembedState := state.goto (.answered answer)

def writeOutcomeUnknownFor : ReembedState :=
  { state with outcomeUnknown := true }.answer (.refused writeOutcomeUnknown)

def settle (response : PatchResponse) : ReembedState :=
  if state.committedUnconfirmed then state.writeOutcomeUnknownFor
  else state.answer (.refused response)

def thrown : ReembedState :=
  if state.committedUnconfirmed then state.writeOutcomeUnknownFor else state.answer .threw

def nextAttempt : ReembedState :=
  { state with attempt := state.attempt + 1, phase := .opening }

@[simp] def land (fields : Record) (landed : Bool) : ReembedState :=
  { state with
    stored := if landed then some ((state.stored.getD ∅).assign fields) else state.stored }

end ReembedState

section Steps

variable (call : ReembedCall) (state : ReembedState)

def openStep : ReembedState :=
  let read := state.note (.opened state.stored)
  match state.stored with
  | none => read.answer (.refused notFound)
  | some stored =>
    if ownerRefused call.auth (some stored) then read.settle forbidden
    else
      match nonEmptyText (skillEmbedText stored) with
      | none => read.settle noText
      | some text =>
        if skillEmbedText stored = state.textToEmbed then read.goto (.staging stored)
        else if state.attempt = reembedWriteAttempts then read.settle reembedRowChanged
        else { read with textToEmbed := some (.str text) }.goto (.recomputing text)

/-- The update built from the row read, its model and the vector at hand. -/
def reembedWrite (model : String) (embedding : Value) (stored : Record)
    (updatedAt newToken : String)
    : ReembedWrite :=
  let world := { call.world with now := updatedAt, newInstanceToken := newToken }
  { stored
    updatedAt
    token := (storedInstanceToken stored).getD newToken
    identity := reembedIdentity world stored
    fields := reembedUpdate world model embedding stored }

/-- `confirmCommittedRow`: the committed row is still the row read, with the same text. -/
def confirmStep (write : ReembedWrite) : ReembedState :=
  match state.stored with
  | none => state.settle storedRowChanged
  | some committed =>
    if sameStoredRow (some committed) (some write.stored)
        && decide (skillEmbedText committed = state.textToEmbed)
    then state.goto (.confirmed write committed)
    else state.settle storedRowChanged

def verifyStep (write : ReembedWrite) : ReembedState :=
  let read := state.note (.readBack state.stored)
  if (state.stored.all fun committed => decide (skillEmbedText committed = state.textToEmbed))
      && decide (verifyCommittedFields (some state.stored) (some write.identity) write.fields
        = .shown)
  then read.answer (.written write.updatedAt write.token)
  else if state.attempt = reembedWriteAttempts then read.writeOutcomeUnknownFor
  else read.nextAttempt

def recomputeStep (text : String) : Provider → ReembedState
  | .timedOut => state.settle memoryProviderTimeout
  | .threw => state.thrown
  | .vector recomputed =>
    if isUsableEmbedding recomputed then
      { state with embedding := recomputed }.note (.computed (some (.str text)) recomputed)
        |>.nextAttempt
    else state.settle embeddingUnavailable

def reembedStep : ReembedLabel → Option ReembedState
  | .other row => some { state with stored := row }
  | .read =>
    match state.phase with
    | .opening => some (openStep call state)
    | .staged write => some (confirmStep state write)
    | .verifying write => some (verifyStep state write)
    | _ => none
  | .stage updatedAt newToken =>
    match state.phase, getModelId call.world with
    | .staging stored, .ok model =>
      some (state.goto
        (.staged (reembedWrite call model state.embedding stored updatedAt newToken)))
    | _, _ => none
  | .withhold updatedAt newToken =>
    match state.phase, getModelId call.world with
    | .staging stored, .ok model =>
      some (state.goto
        (.withheld (reembedWrite call model state.embedding stored updatedAt newToken)))
    | _, _ => none
  | .commit landed =>
    match state.phase with
    | .withheld write =>
      some (((state.land write.fields landed).note (.withheldCommitted landed)).settle
        withheldWriteResult)
    | .confirmed write _ =>
      -- The flag is set before anything else runs, the notifier included.
      some ({ (state.land write.fields landed).note (.committed write landed) with
        committedUnconfirmed := true }.goto (.verifying write))
    | _ => none
  | .provider answer =>
    match state.phase with
    | .recomputing text => some (recomputeStep state text answer)
    | _ => none
  | .throw =>
    match state.phase with
    | .answered _ => none
    | _ => some state.thrown

end Steps

def storedRowReembed (call : ReembedCall) : System ReembedState ReembedLabel where
  initial state :=
    state.textToEmbed = skillEmbedText call.preRead ∧ state.embedding = call.vector
      ∧ state.attempt = 1 ∧ state.committedUnconfirmed = false ∧ state.outcomeUnknown = false
      ∧ state.phase = .opening
      ∧ state.log = [.computed (skillEmbedText call.preRead) call.vector]
  step := reembedStep call

end Flair.Reembeds
