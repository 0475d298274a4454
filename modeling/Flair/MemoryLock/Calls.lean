import Mathlib.Data.List.Sort
import Flair.Foundations.KeyLedger
import Flair.Foundations.Systems
import Flair.Foundations.Values

/-! The Memory write lock: any number of lock calls over the stores' per-key locks, one
transition for each key taken or released and each awaited step of a call. Follows
`resources/memory-write-lock.ts`.
-/

namespace Flair.MemoryLock

open Dynamic KeyLedger Transition

-- Ids

/-- One round of the loop of `normalizeIds`. -/
def addId (unique : List String) (id : String) : List String :=
  if id ∈ unique then unique else unique ++ [id]

/-- `normalizeIds`: the ids once each, sorted by UTF-16 code units. -/
def normalizeIds (ids : List String) : List String :=
  (ids.foldl addId []).insertionSort (fun left right => ¬ textLt right left)

theorem addId_nodup {unique : List String} (h : unique.Nodup) (id : String)
    : (addId unique id).Nodup := by
  unfold addId
  split
  · exact h
  rename_i fresh
  rw [List.nodup_append]
  refine ⟨h, List.nodup_singleton id, ?_⟩
  intro other member added same equal
  rw [List.mem_singleton] at same
  exact fresh (same ▸ equal ▸ member)

theorem foldl_addId_nodup (ids : List String) {unique : List String} (h : unique.Nodup)
    : (ids.foldl addId unique).Nodup := by
  induction ids generalizing unique with
  | nil => exact h
  | cons id rest ih => exact ih (addId_nodup h id)

theorem normalizeIds_nodup (ids : List String) : (normalizeIds ids).Nodup :=
  (List.perm_insertionSort _ _).nodup_iff.mpr (foldl_addId_nodup ids List.nodup_nil)

-- Calls

/-- The outcome of a lock call: the function ran and returned or a throw came out of the
call, or it never ran.
-/
inductive LockOutcome where
  | done
  | threw
  | busy
  | unknown (id : String)
  | unavailable
deriving DecidableEq

/-- Where a lock call is. `draining` is `settleAcquisition` waiting for the scope that was
open when the function settled.
-/
inductive CallStage where
  | idle
  | checking (attempt : Nat)
  | locking (attempt : Nat) (left : List String)
  | backingOff (attempt : Nat)
  | running
  | settled (ok : Bool)
  | draining (ok scopeFailed : Bool)
  | releasing (outcome : LockOutcome)
  | returned (outcome : LockOutcome)
deriving DecidableEq

structure TokenState where
  live : Bool
  admitting : Bool
  scopeOpen : Bool
deriving DecidableEq

/-- One call: what it asked for, the keys it has acquired, the latest first, and its token
once it is minted.
-/
structure LockCall where
  store : Nat
  ids : List String
  attempts : Nat
  stage : CallStage
  acquired : List String
  token : Option TokenState

def idleCall : LockCall where
  store := 0
  ids := []
  attempts := 0
  stage := .idle
  acquired := []
  token := none

abbrev LockKey := Nat × String

structure LockState where
  ledger : Ledger LockKey Nat
  call : Nat → LockCall

namespace LockCall

abbrev Live (call : LockCall) : Prop := ∃ token, call.token = some token ∧ token.live = true

@[simp] def keys (call : LockCall) : List LockKey := call.acquired.map (Prod.mk call.store)

end LockCall

namespace LockState

def put (state : LockState) (caller : Nat) (call : LockCall) : LockState :=
  { state with call := Function.update state.call caller call }

end LockState

-- Capability checks

/-- `MemoryWriteCapabilityRefusal` -/
inductive CapabilityRefusal where
  | notAToken
  | revoked
  | wrongStore
  | idNotCovered
  | scopeOpen
  | notATransaction
  | transactionMismatch
  | transactionClosed
deriving DecidableEq

/-- `tokenState`: the call a token belongs to, with its state. A value that is no token of
the registry is `none`, and so is the token of a call that never minted one.
-/
def tokenState (state : LockState) (held : Option Nat)
    : Except CapabilityRefusal (LockCall × TokenState) :=
  match held with
  | none => .error .notAToken
  | some caller =>
    match (state.call caller).token with
    | none => .error .notAToken
    | some token => .ok (state.call caller, token)

/-- `assertMemoryWriteLockToken`, with the store when one is expected. -/
def assertMemoryWriteLockToken (state : LockState) (held store : Option Nat)
    (ids : List String)
    : Except CapabilityRefusal Unit :=
  match tokenState state held with
  | .error refusal => .error refusal
  | .ok (call, token) =>
    if token.live = false then .error .revoked
    else if store ≠ none ∧ store ≠ some call.store then .error .wrongStore
    else if ∃ id ∈ ids, id ∉ call.ids then .error .idNotCovered
    else .ok ()

/-- `admitLockedScope`: the scope opens on the token's acquisition. -/
def admitLockedScope (state : LockState) (held : Option Nat)
    : Except CapabilityRefusal LockState :=
  match assertMemoryWriteLockToken state held none [] with
  | .error refusal => .error refusal
  | .ok () =>
    match held, tokenState state held with
    | some caller, .ok (call, token) =>
      if token.admitting = false then .error .revoked
      else if token.scopeOpen then .error .scopeOpen
      else .ok (state.put caller { call with token := some { token with scopeOpen := true } })
    | _, _ => .error .notAToken

-- Steps

def nextAttempt (call : LockCall) (attempt : Nat) : LockCall :=
  { call with
    stage := if attempt < call.attempts then .checking attempt else .returned .busy }

def startCall (store : Option Nat) (ids : List String) (attempts : Nat) : LockCall :=
  match store, normalizeIds ids with
  | some store, id :: rest =>
    nextAttempt { idleCall with store, ids := id :: rest, attempts } 0
  | _, _ => { idleCall with stage := .returned .unavailable }

/-- How the call ends after its function settled and its last scope did: a failed scope the
function did not await fails the call.
-/
def settledOutcome (ok scopeFailed : Bool) : LockOutcome :=
  if ok && !scopeFailed then .done else .threw

inductive LockLabel where
  | start (caller : Nat) (store : Option Nat) (ids : List String) (attempts : Nat)
  | check (caller : Nat) (marked : String → Bool)
  | take (caller : Nat)
  | mint (caller : Nat)
  | unlock (caller : Nat)
  | finish (caller : Nat)
  | settle (caller : Nat) (ok : Bool)
  | openScope (caller : Nat)
  | closeScope (caller : Nat) (failed : Bool)
  | close (caller : Nat)
  | revoke (caller : Nat)

/-- One `tryLock` of the acquisition loop. -/
def takeStep (state : LockState) (caller : Nat) : Option LockState :=
  let call := state.call caller
  match call.stage with
  | .locking attempt (id :: left) =>
    match state.ledger.tryLock caller (call.store, id) with
    | some ledger =>
      some ({ state with ledger }.put caller
        { call with stage := .locking attempt left, acquired := id :: call.acquired })
    | none => some (state.put caller { call with stage := .backingOff attempt })
  | _ => none

/-- One `unlock` of `releaseAll`, the latest key first. -/
def unlockStep (state : LockState) (caller : Nat) : Option LockState :=
  let call := state.call caller
  match call.stage, call.acquired with
  | .backingOff _, id :: rest | .releasing _, id :: rest =>
    some ({ state with ledger := state.ledger.unlock caller (call.store, id) }.put caller
      { call with acquired := rest })
  | _, _ => none

def callStep (call : LockCall) : LockLabel → Option LockCall
  | .start _ store ids attempts =>
    match call.stage with
    | .idle => some (startCall store ids attempts)
    | _ => none
  | .check _ marked =>
    match call.stage with
    | .checking attempt =>
      some { call with
        stage :=
          match call.ids.find? marked with
          | some id => .returned (.unknown id)
          | none => .locking attempt call.ids }
    | _ => none
  | .mint _ =>
    match call.stage with
    | .locking _ [] =>
      some { call with
        stage := .running
        token := some { live := true, admitting := true, scopeOpen := false } }
    | _ => none
  | .finish _ =>
    match call.stage, call.acquired with
    | .backingOff attempt, [] => some (nextAttempt call (attempt + 1))
    | .releasing outcome, [] => some { call with stage := .returned outcome }
    | _, _ => none
  | .settle _ ok =>
    match call.stage with
    | .running => some { call with stage := .settled ok }
    | _ => none
  | .closeScope _ failed =>
    match call.token with
    | some { live, admitting, scopeOpen := true } =>
      some { call with
        token := some { live, admitting, scopeOpen := false }
        stage :=
          match call.stage with
          | .draining ok _ => .draining ok failed
          | stage => stage }
    | _ => none
  | .close _ =>
    match call.stage, call.token with
    | .settled ok, some token =>
      some { call with
        stage := .draining ok false
        token := some { token with admitting := false } }
    | _, _ => none
  | .revoke _ =>
    match call.stage, call.token with
    | .draining ok scopeFailed, some { live := _, admitting, scopeOpen := false } =>
      some { call with
        stage := .releasing (settledOutcome ok scopeFailed)
        token := some { live := false, admitting, scopeOpen := false } }
    | _, _ => none
  | .take _ | .unlock _ | .openScope _ => none

def LockLabel.caller : LockLabel → Nat
  | .start caller _ _ _ | .check caller _ | .take caller | .mint caller | .unlock caller
  | .finish caller | .settle caller _ | .openScope caller | .closeScope caller _
  | .close caller | .revoke caller => caller

def lockStep (state : LockState) (label : LockLabel) : Option LockState :=
  match label with
  | .take caller => takeStep state caller
  | .unlock caller => unlockStep state caller
  | .openScope caller =>
    match admitLockedScope state (some caller) with
    | .ok next => some next
    | .error _ => some state
  | _ => (callStep (state.call label.caller) label).map (state.put label.caller)

def memoryLocks : System LockState LockLabel where
  initial state := state.ledger = Ledger.fresh ∧ ∀ caller, state.call caller = idleCall
  step := lockStep

end Flair.MemoryLock
