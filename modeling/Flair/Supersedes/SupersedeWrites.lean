import Flair.Foundations.Systems
import Flair.Memories.Attributes
import Flair.Relay.Requests

/-! A write that supersedes a row, beside any other writers: its authorization, the close a
write grant authorizes in the successor's transaction, and the owner's own close after it.
Follows `resources/Memory.ts`, `resources/grant-visibility.ts`, `resources/write-back.ts` and
`resources/skill-version-write.ts`.
-/

namespace Flair.Supersedes

open Dynamic Transition Flair.Memories
open Flair.Relay (AgentAuthVerdict)

-- Visibility and grants

def privateVisibility : Option Value := some (.str "private")

/-- `isPrivateVisibility`: every other value reads as shared. -/
def isPrivateVisibility (visibility : Option Value) : Bool :=
  strictEquals visibility privateVisibility

def readVisibility (visibility : Option Value) : Value :=
  if isPrivateVisibility visibility then .str "private" else .str "shared"

/-- Would `next` in place of `prior` change who can read the record? -/
def visibilityChanges (prior next : Option Value) : Bool :=
  decide (readVisibility prior ≠ readVisibility next)

/-- `assertVisibilityAllowedForDurability` accepts: an ephemeral row is private. -/
def visibilityAllowed (durability visibility : Option Value) : Bool :=
  !strictEquals durability (some (.str "ephemeral")) || isNullish visibility
    || isPrivateVisibility visibility

/-- `writeGrantHeld`: a stored grant of that pair has the write scope. -/
def writeGrantHeld (grants : List Record) (granteeId : String) (ownerId : Option Value) : Bool :=
  grants.any fun grant =>
    strictEquals (grant.get "granteeId") (some (.str granteeId))
      && strictEquals (grant.get "ownerId") ownerId
      && strictEquals (grant.get "scope") (some (.str "write"))

-- Authorization

structure SupersedeClose where
  id : String
  ownerId : Option Value := none
  granteeId : Option String := none
deriving DecidableEq

structure SupersedeDenial where
  status : Nat
  error : String
deriving DecidableEq

/-- What the authorization read: the target, unless the read failed, and whether a grant search
found a write grant.
-/
structure SupersedeReads where
  seedDenial : Option SupersedeDenial
  target : Option (Option Record)
  unreadableStatus : Nat
  granted : Bool

/-- `applyGrantedVisibility`; `none` is its refusal. -/
def applyGrantedVisibility (content predecessor : Record) (requested : Option Value)
    : Option Record :=
  if !isNullish requested && visibilityChanges (predecessor.get "visibility") requested then none
  else some (content.set "visibility" (readVisibility (predecessor.get "visibility")))

def authorizeGranted (agentId : String) (content target : Record) (stored : Option Record)
    (id : String) (requestedVisibility : Option Value) (granted : Bool)
    : Except SupersedeDenial (Record × Option SupersedeClose) :=
  if granted then
    match applyGrantedVisibility content target requestedVisibility with
    | none => .error { status := 403, error := "grant_cannot_change_visibility" }
    | some content =>
      let durability :=
        if isNullish (content.get "durability") then stored.bind (·.get "durability")
        else content.get "durability"
      if visibilityAllowed durability (content.get "visibility") then
        .ok (content, some { id, ownerId := target.get "agentId", granteeId := agentId })
      else .error { status := 400, error := "invalid_visibility_for_durability" }
  else
    .error {
      status := 403
      error := "forbidden: cannot supersede a memory owned by another agent without a write grant" }

def validateAndAuthorizeSupersedes (auth : AgentAuthVerdict) (content : Record)
    (stored : Option Record) (requestedVisibility : Option Value) (reads : SupersedeReads)
    : Except SupersedeDenial (Record × Option SupersedeClose) :=
  let content :=
    if content.get "supersedes" = some .null then content.delete "supersedes" else content
  match content.get "supersedes" with
  | none => .ok (content, none)
  | some (.str id) =>
    match reads.seedDenial with
    | some denial => .error denial
    | none =>
      if id = "" then .ok (content, none)
      else
        match auth with
        | .agent agentId false =>
          match reads.target with
          | none =>
            .error { status := reads.unreadableStatus, error := "supersedes_target_unreadable" }
          | some none =>
            if stored.bind (·.get "supersedes") = some (.str id) then .ok (content, none)
            else .error { status := 409, error := "supersedes_target_missing" }
          | some (some target) =>
            if strictEquals (target.get "agentId") (some (.str agentId)) then
              .ok (content, some { id, ownerId := target.get "agentId" })
            else
              authorizeGranted agentId content target stored id requestedVisibility
                reads.granted
        | _ => .ok (content, some { id })
  | some _ => .error { status := 400, error := "supersedes must be a string (memory ID)" }

-- Closes

def stripUndeclaredMemoryAttributes (row : Record) : Record :=
  row.filter fun field _ => decide (field ∈ memoryAttributes)

/-- `a ?? b` -/
def orElse (left right : Option Value) : Option Value := if isNullish left then right else left

/-- `row[field] = value`, where `undefined` leaves no value. -/
def assignField (row : Record) (field : String) : Option Value → Record
  | none => row.delete field
  | some value => row.set field value

/-- `{ ...existing, ...supersedeClosePatch(content) }` -/
def applyClosePatch (content existing : Record) : Record :=
  assignField
    (assignField existing "validTo" (orElse (content.get "validFrom") (content.get "createdAt")))
    "updatedAt" (orElse (content.get "createdAt") (content.get "updatedAt"))

/-- The row `closeSupersededRecord` puts. -/
def ownerClosedRow (content existing : Record) : Record :=
  normalizeEmptyEmbedding (stripUndeclaredMemoryAttributes (applyClosePatch content existing))

/-- The row `stageGrantedClose` puts. -/
def grantedClosedRow (content existing : Record) : Record :=
  stripUndeclaredMemoryAttributes (applyClosePatch content existing)

/-- The row `closePredecessor` puts. -/
def skillClosedRow (predecessor patch : Record) : Record :=
  normalizeEmptyEmbedding (predecessor.assign patch)

def supersedeCloseAttempts : Nat := 3

-- One write

abbrev RowKey := Option Value

def keyOf (id : String) : RowKey := some (.str id)

structure Tables where
  rows : RowKey → Option Record
  grants : List Record

inductive WritePath where
  | memory
  | skill
deriving DecidableEq

/-- A grant-authorized close staged with its successor, built from the row `decided`. -/
structure GrantedWrite where
  path : WritePath
  closeId : String
  granteeId : String
  ownerId : Option Value
  successor : Record
  decided : Record
  closed : Record
deriving DecidableEq

/-- Where a write is between two of its awaited steps. -/
inductive WriteStage where
  | idle
  | authorized (close : Option SupersedeClose)
  | successorStaged (successor : Record) (close : Option SupersedeClose)
  | closeStaged (write : GrantedWrite)
  | rowConfirmed (write : GrantedWrite) (committed : Option Record)
  | grantConfirmed (write : GrantedWrite) (committed : Option Record) (grants : List Record)
  | successorCommitted (successor : Record) (close : Option SupersedeClose)
  | closing (successor : Record) (close : SupersedeClose) (attempt : Nat)
  | closeRead (successor : Record) (close : SupersedeClose) (attempt : Nat) (existing : Record)
  | closePut (successor : Record) (close : SupersedeClose) (attempt : Nat) (existing : Record)
  | closeConfirmed (successor : Record) (close : SupersedeClose) (attempt : Nat)
      (existing : Record)
  | refused
  | returned

/-- What the write committed, for what is said about it; nothing reads it. -/
inductive CommitEvent where
  | successor (row : Record)
  | granted (write : GrantedWrite) (committed : Option Record) (grants : List Record)
  | ownerClosed (successor : Record) (close : SupersedeClose) (attempt : Nat)
      (existing : Record) (committed : Option Record) (closed : Record)
deriving DecidableEq

/-- The tables, the write's stage, the successor its caller has still to commit, and the
write's commits, the last one first.
-/
structure SupersedeState where
  tables : Tables
  stage : WriteStage
  pending : Option Record
  log : List CommitEvent

section Steps

variable (joins : Bool) (auth : AgentAuthVerdict) (state : SupersedeState)

def SupersedeState.goto (stage : WriteStage) : SupersedeState := { state with stage }

def SupersedeState.note (event : CommitEvent) : SupersedeState :=
  { state with log := event :: state.log }

def authorizeStep (content : Record) (stored : Option Record)
    (requestedVisibility : Option Value) (reads : SupersedeReads) : Option SupersedeState :=
  match state.stage with
  | .idle =>
    match validateAndAuthorizeSupersedes auth content stored requestedVisibility reads with
    | .error _ => some (state.goto .refused)
    | .ok (_, close) => some (state.goto (.authorized close))
  | _ => none

def leaveToCallerStep : Option SupersedeState :=
  match state.stage with
  | .successorStaged successor close =>
    if joins then
      match close with
      | none => some { state with stage := .returned, pending := some successor }
      | some close =>
        if close.granteeId.isSome then none
        else some { state with stage := .closing successor close 1, pending := some successor }
    else none
  | _ => none

/-- Another check refuses, or an operation throws: the open transaction is aborted. -/
def failStep : Option SupersedeState :=
  match state.stage with
  | .authorized _ | .successorStaged _ _ | .closeStaged _ | .rowConfirmed _ _
  | .grantConfirmed _ _ _ => some (state.goto .refused)
  | .closing _ _ _ | .closeRead _ _ _ _ | .closePut _ _ _ _ | .closeConfirmed _ _ _ _ =>
    some (state.goto .returned)
  | _ => none

end Steps

end Flair.Supersedes
