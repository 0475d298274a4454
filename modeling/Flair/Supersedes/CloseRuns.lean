import Flair.Supersedes.SupersedeWrites

/-! What a superseding write commits, beside any other writers: a grant-authorized close with
its successor, over the row it was built from, and an owner's close after its successor.
-/

namespace Flair.Supersedes

open Dynamic Transition
open Flair.Relay (AgentAuthVerdict)

variable {joins : Bool} {auth : AgentAuthVerdict}

-- Honest commits

def GrantedWrite.Built (write : GrantedWrite) : Prop :=
  match write.path with
  | .memory => write.closed = grantedClosedRow write.successor write.decided
  | .skill => ∃ patch, write.closed = skillClosedRow write.decided patch

structure RowShown (write : GrantedWrite) (committed : Option Record) : Prop where
  built : write.Built
  same : committed = some write.decided
  visibility : readVisibility (write.decided.get "visibility")
    = readVisibility (write.successor.get "visibility")

/-- Every commit, over the commits before it: a granted close over the row and the grant shown
at their last reads, an owner's close in its first three attempts, over the row shown at its
read, with its successor committed before.
-/
def Honest : List CommitEvent → Prop
  | [] => True
  | .successor _ :: rest => Honest rest
  | .granted write committed grants :: rest =>
    RowShown write committed
      ∧ writeGrantHeld grants write.granteeId write.ownerId = true ∧ Honest rest
  | .ownerClosed successor _ attempt existing committed closed :: rest =>
    attempt ≤ supersedeCloseAttempts ∧ committed = some existing
      ∧ closed = ownerClosedRow successor existing ∧ .successor successor ∈ rest ∧ Honest rest

def StageHolds (log : List CommitEvent) : WriteStage → Prop
  | .idle | .authorized _ | .successorStaged _ _ | .refused => log = []
  | .closeStaged write => log = [] ∧ write.Built
  | .rowConfirmed write committed => log = [] ∧ RowShown write committed
  | .grantConfirmed write committed grants =>
    log = [] ∧ RowShown write committed
      ∧ writeGrantHeld grants write.granteeId write.ownerId = true
  | .successorCommitted successor _ => .successor successor ∈ log
  | .closing successor _ attempt | .closeRead successor _ attempt _
  | .closePut successor _ attempt _ | .closeConfirmed successor _ attempt _ =>
    attempt ≤ supersedeCloseAttempts ∧ .successor successor ∈ log
  | .returned => True

def WriteStage.attempts : WriteStage → Nat
  | .closing _ _ attempt | .closeRead _ _ attempt _ | .closePut _ _ attempt _
  | .closeConfirmed _ _ attempt _ => attempt
  | _ => 0

variable {before after : SupersedeState}

def CommitEvent.apply (rows : RowKey → Option Record) : CommitEvent → RowKey → Option Record
  | .successor row => Function.update rows (row.get "id") (some row)
  | .granted write _ _ =>
    Function.update (Function.update rows (write.successor.get "id") (some write.successor))
      (keyOf write.closeId) (some write.closed)
  | .ownerClosed _ close _ _ _ closed =>
    Function.update rows (keyOf close.id) (some closed)

def ownersRow : Record :=
  .ofFields [("id", .str "old"), ("agentId", .str "ana"), ("visibility", .str "shared")]

def writeGrant : Record :=
  .ofFields [("granteeId", .str "bo"), ("ownerId", .str "ana"), ("scope", .str "write")]

def tablesWith (row : Record) : Tables where
  rows key := if key = keyOf "old" then some row else none
  grants := [writeGrant]

def fresh : SupersedeState where
  tables := tablesWith ownersRow
  stage := .idle
  pending := none
  log := []

end Flair.Supersedes
