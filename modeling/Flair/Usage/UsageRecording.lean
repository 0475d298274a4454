import Flair.Federation.Merge
import Flair.Foundations.InsertionMap
import Flair.Foundations.KeyLedger

/-! Usage recordings over one Memory table and its usage ledger, one transition for each
awaited step, with a crash or another writer's commit between any two. Follows
`resources/usage-recording.ts`, `resources/RecordUsage.ts` and `resources/usage-ids.ts`.
-/

namespace Flair.Usage

open Dynamic KeyLedger Transition

-- Requests

structure AgentId where
  text : String
  valid : Federation.isValidAgentId text = true
deriving DecidableEq

/-- `resolveAgentAuth`'s verdict. That the agent is an administrator is not looked at. -/
inductive AgentAuth where
  | internal
  | agent (agent : AgentId)
  | anonymous
deriving DecidableEq

def maxUsageIdsPerCall : Nat := 20

/-- What a recording answers. A citation's batch has no answer of its own. -/
inductive UsageAnswer where
  | refused (status : Nat) (error : String)
  | rateLimited
  | recorded
  | silent
deriving DecidableEq

inductive ResolveUsageIdsError where
  | invalid
  | empty
  | cap
deriving DecidableEq

def nonEmptyTexts (items : List Value) : Option (List String) :=
  items.mapM fun
    | .str text => if text = "" then none else some text
    | _ => none

def resolveRecordUsageIds (data : Record) (maxIds : Nat)
    : Except ResolveUsageIdsError (List String) :=
  let memoryId :=
    match data.get "memoryId" with
    | some (.str id) => if id = "" then [] else [id]
    | _ => []
  let memoryIds :=
    match data.get "memoryIds" with
    | none | some .null => some []
    | some (.arr items) => nonEmptyTexts items
    | some _ => none
  match memoryIds with
  | none => .error .invalid
  | some given =>
    let ids := (given ++ memoryId).eraseDups
    if ids = [] then .error .empty
    else if maxIds < ids.length then .error .cap
    else .ok ids

/-- `RecordUsage.post` before its batch: the answer that refuses it, or whom it credits for
which memories.
-/
def recordUsagePost (auth : AgentAuth) (allowed : Bool) (data : Record)
    : Except UsageAnswer (AgentId × List String) :=
  match auth with
  | .anonymous => .error (.refused 401 "authentication required")
  | .internal => .error (.refused 400 "usage feedback requires a verified agent identity")
  | .agent agent =>
    if !allowed then .error .rateLimited
    else
      match resolveRecordUsageIds data maxUsageIdsPerCall with
      | .error .cap =>
        .error (.refused 400 ("memoryIds exceeds the per-call limit of "
          ++ toString maxUsageIdsPerCall))
      | .error _ =>
        .error (.refused 400 "memoryIds must be a non-empty array of memory id strings")
      | .ok ids => .ok (agent, ids)

/-- The ids `recordCitations` credits, of a memory write's `usedMemoryIds`. -/
def citedIds (usedMemoryIds : Option Value) : List String :=
  match usedMemoryIds with
  | some (.arr items) => ((nonEmptyTexts items).getD []).eraseDups.take maxUsageIdsPerCall
  | _ => []

/-- `recordCitations` before its batch; `none` when it returns at once. -/
def recordCitations (auth : AgentAuth) (usedMemoryIds : Option Value)
    : Option (AgentId × List String) :=
  match auth with
  | .agent agent =>
    match citedIds usedMemoryIds with
    | [] => none
    | ids => some (agent, ids)
  | _ => none

-- Rows

/-- The ledger row's id, `agentId:memoryId`. -/
def ledgerId (agent : AgentId) (memoryId : String) : String :=
  agent.text ++ ":" ++ memoryId

def ledgerRecord (agent : AgentId) (memoryId : String) (attribution : Option String)
    (now : String)
    : Record :=
  let row := Record.ofFields [("id", .str (ledgerId agent memoryId)),
    ("agentId", .str agent.text), ("memoryId", .str memoryId), ("createdAt", .str now)]
  match attribution with
  | none | some "" => row
  | some text => row.set "attribution" (.str text)

/-- `row.usageCount ?? 0`, of a column that holds numbers. -/
def usageCount (row : Record) : Rat :=
  match row.get "usageCount" with
  | some (.num count) => count
  | _ => 0

def storedCount (row : Option Record) : Rat := (row.map usageCount).getD 0

def countPlan (canRead : Record → Bool) (row : Option Record) : WriteBack.Plan :=
  match row.filter canRead with
  | none => .skip none
  | some row =>
    .update (.ofFields [("usageCount", .num (usageCount row + 1))])
      (.marker "writeBackWriteId")

def countCall (canRead : Record → Bool) (prepared : Record) : WriteBack.Call where
  plan _ row := some (countPlan canRead row)
  attempts := 3
  expectedRow := some (some prepared)
  «matches» _ := true
  matchFields := []
  wholeRow := false
  verifyAlso _ := true

-- Recordings

/-- The write lock of a memory id, or the usage ledger's lock of an agent and a memory. -/
inductive UsageKey where
  | memory (id : String)
  | pair (agent : AgentId) (id : String)
deriving DecidableEq

def usageLockAttempts : Nat := 200

/-- One batch of contributions. `canRead` is the agent's read scope, which denies everything
until it is resolved; `left` are the ids still to credit.
-/
structure Batch where
  agent : AgentId
  attribution : Option String
  now : String
  cites : Bool
  canRead : Record → Bool
  left : List String

/-- Where a batch is between two of its awaited steps, with the memory it is crediting. -/
inductive UsageStage where
  | scoping
  | picking
  | prechecking (id : String)
  | locking (id : String)
  | lockingPair (id : String) (attempt : Nat)
  | reading (id : String)
  | gating (id : String)
  | claiming (id : String) (prepared : Record)
  | counting (id : String) (prepared : Record) (helper : WriteBack.State)
  | releasing (id : String) (held : List UsageKey)

inductive UsageRequest where
  | idle
  | working (batch : Batch) (stage : UsageStage)
  | answered (answer : UsageAnswer)
  | crashed

structure Raise where
  agent : AgentId
  memory : String
  amount : Rat
deriving DecidableEq

/-- The two tables, the locks of the process, its requests, and every raise so far. -/
structure UsageState where
  memories : String → Option Record
  ledger : InsertionMap String Record
  locks : Ledger UsageKey Nat
  requests : Nat → UsageRequest
  raises : List Raise

/-- One step of a request, a crash, or another writer's commit. A post's attribution is the
sanitized one; a request's read or commit may fail.
-/
inductive UsageLabel where
  | post (caller : Nat) (auth : AgentAuth) (allowed : Bool) (data : Record)
      (attribution : Option String) (now : String)
  | cite (caller : Nat) (auth : AgentAuth) (usedMemoryIds : Option Value) (now : String)
  | resolveScope (caller : Nat) (scope : Option (Record → Bool))
  | pick (caller : Nat)
  | precheck (caller : Nat) (readable : Bool)
  | take (caller : Nat)
  | lockRefused (caller : Nat)
  | readLedger (caller : Nat) (readable : Bool)
  | readMemory (caller : Nat) (readable : Bool)
  | claim (caller : Nat) (landed resolves : Bool)
  | count (caller : Nat) (step : WriteBack.Label)
  | settle (caller : Nat)
  | release (caller : Nat)
  | crash
  | write (memory : String) (row : Option Record)

def UsageLabel.caller : UsageLabel → Option Nat
  | .post caller _ _ _ _ _ | .cite caller _ _ _ | .resolveScope caller _ | .pick caller
  | .precheck caller _ | .take caller | .lockRefused caller | .readLedger caller _
  | .readMemory caller _ | .claim caller _ _ | .count caller _ | .settle caller
  | .release caller => some caller
  | .crash | .write _ _ => none

def UsageState.goto (state : UsageState) (caller : Nat) (request : UsageRequest) : UsageState :=
  { state with requests := Function.update state.requests caller request }

-- Steps

def arrivedBatch (agent : AgentId) (ids : List String) (attribution : Option String)
    (now : String) (cites : Bool)
    : UsageRequest :=
  .working { agent, attribution, now, cites, canRead := fun _ => false, left := ids } .scoping

def postArrival (auth : AgentAuth) (allowed : Bool) (data : Record)
    (attribution : Option String) (now : String)
    : UsageRequest :=
  match recordUsagePost auth allowed data with
  | .error answer => .answered answer
  | .ok (agent, ids) => arrivedBatch agent ids attribution now false

def citeArrival (auth : AgentAuth) (usedMemoryIds : Option Value) (now : String)
    : UsageRequest :=
  match recordCitations auth usedMemoryIds with
  | none => .answered .silent
  | some (agent, ids) => arrivedBatch agent ids none now true

def Batch.answer (batch : Batch) : UsageAnswer := if batch.cites then .silent else .recorded

def scopeResolved (batch : Batch) : Option (Record → Bool) → UsageRequest
  | none => .answered batch.answer
  | some canRead => .working { batch with canRead } .picking

/-- The next id of a batch; a citation's id is looked up before its contribution. -/
def picked (batch : Batch) : UsageRequest :=
  match batch.left with
  | [] => .answered batch.answer
  | id :: left =>
    .working { batch with left } (if batch.cites then .prechecking id else .locking id)

/-- The step after a citation's own look at the memory. -/
def prechecked (batch : Batch) (id : String) (row : Option Record) : UsageRequest :=
  .working batch (if (row.filter batch.canRead).isSome then .locking id else .picking)

def bothKeys (batch : Batch) (id : String) : List UsageKey := [.pair batch.agent id, .memory id]

/-- The batch gives up its id's locks and credits nothing more for it. -/
def leave (batch : Batch) (id : String) : UsageRequest :=
  .working batch (.releasing id (bothKeys batch id))

/-- One attempt at a lock. The memory's lock is tried once, without waiting. -/
def takeLock (state : UsageState) (caller : Nat) : Option UsageState :=
  match state.requests caller with
  | .working batch (.locking id) =>
    match state.locks.tryLock caller (.memory id) with
    | some locks => some ({ state with locks }.goto caller (.working batch (.lockingPair id 0)))
    | none => some (state.goto caller (.working batch .picking))
  | .working batch (.lockingPair id attempt) =>
    match state.locks.tryLock caller (.pair batch.agent id) with
    | some locks => some ({ state with locks }.goto caller (.working batch (.reading id)))
    | none =>
      some (state.goto caller (.working batch
        (if attempt + 1 < usageLockAttempts then .lockingPair id (attempt + 1)
        else .releasing id [.memory id])))
  | _ => none

/-- The step after the read of the memory: absent, out of scope or not read are one branch. -/
def gated (batch : Batch) (id : String) (row : Option Record) : UsageRequest :=
  match row.filter batch.canRead with
  | some prepared => .working batch (.claiming id prepared)
  | none => leave batch id

/-- What can come of a commit over the stored row: one that resolves has landed, unless a
newer row has been stored under its id, over which the store drops the write.
-/
def commits (stored : Option Record) (landed resolves : Bool) : Bool :=
  landed || !resolves || stored.isSome

/-- The count's write-back before its first step. -/
def countStart (batch : Batch) (id : String) (prepared : Record) : UsageRequest :=
  .working batch (.counting id prepared {
    stored := some prepared
    basis := none
    attempt := 1
    phase := .selecting
    log := [] })

def landedRaise (agent : AgentId) (id : String) (before after : Option Record)
    : WriteBack.Label → List Raise
  | .commit _ true => [{ agent, memory := id, amount := storedCount after - storedCount before }]
  | _ => []

def countStep (state : UsageState) (caller : Nat) (step : WriteBack.Label)
    : Option UsageState :=
  match state.requests caller, step with
  | _, .other _ => none
  | .working batch (.counting id prepared helper), step =>
    (WriteBack.step (countCall batch.canRead prepared)
        { helper with stored := state.memories id } step).map fun next =>
      { state with
        memories := Function.update state.memories id next.stored
        raises := state.raises
          ++ landedRaise batch.agent id (state.memories id) next.stored step
      }.goto caller (.working batch (.counting id prepared next))
  | _, _ => none

def settled : WriteBack.Phase → Bool
  | .resolved _ | .failed _ => true
  | _ => false

def UsageRequest.crash : UsageRequest → UsageRequest
  | .working _ _ => .crashed
  | request => request

def usageStep (state : UsageState) : UsageLabel → Option UsageState
  | .post caller auth allowed data attribution now =>
    match state.requests caller with
    | .idle => some (state.goto caller (postArrival auth allowed data attribution now))
    | _ => none
  | .cite caller auth usedMemoryIds now =>
    match state.requests caller with
    | .idle => some (state.goto caller (citeArrival auth usedMemoryIds now))
    | _ => none
  | .resolveScope caller scope =>
    match state.requests caller with
    | .working batch .scoping => some (state.goto caller (scopeResolved batch scope))
    | _ => none
  | .pick caller =>
    match state.requests caller with
    | .working batch .picking => some (state.goto caller (picked batch))
    | _ => none
  | .precheck caller readable =>
    match state.requests caller with
    | .working batch (.prechecking id) =>
      some (state.goto caller
        (prechecked batch id (if readable then state.memories id else none)))
    | _ => none
  | .take caller => takeLock state caller
  | .lockRefused caller =>
    -- A marked id, a store without locks, or a lock some other writer holds.
    match state.requests caller with
    | .working batch (.locking _) => some (state.goto caller (.working batch .picking))
    | .working batch (.lockingPair id _) =>
      some (state.goto caller (.working batch (.releasing id [.memory id])))
    | _ => none
  | .readLedger caller readable =>
    match state.requests caller with
    | .working batch (.reading id) =>
      let fresh := readable && (state.ledger.get (ledgerId batch.agent id)).isNone
      some (state.goto caller
        (if fresh then .working batch (.gating id) else leave batch id))
    | _ => none
  | .readMemory caller readable =>
    match state.requests caller with
    | .working batch (.gating id) =>
      some (state.goto caller
        (gated batch id (if readable then state.memories id else none)))
    | _ => none
  | .claim caller landed resolves =>
    match state.requests caller with
    | .working batch (.claiming id prepared) =>
      let key := ledgerId batch.agent id
      let row := ledgerRecord batch.agent id batch.attribution batch.now
      if commits (state.ledger.get key) landed resolves then
        let ledger := if landed then state.ledger.set key row else state.ledger
        some ({ state with ledger }.goto caller
          (if resolves then countStart batch id prepared else leave batch id))
      else none
    | _ => none
  | .count caller step => countStep state caller step
  | .settle caller =>
    match state.requests caller with
    | .working batch (.counting id _ helper) =>
      if settled helper.phase then some (state.goto caller (leave batch id)) else none
    | _ => none
  | .release caller =>
    match state.requests caller with
    | .working batch (.releasing id (key :: rest)) =>
      some ({ state with locks := state.locks.unlock caller key }.goto caller
        (.working batch (if rest = [] then .picking else .releasing id rest)))
    | _ => none
  | .crash =>
    some { state with
      locks := Ledger.fresh
      requests := fun caller => (state.requests caller).crash }
  | .write memory row => some { state with memories := Function.update state.memories memory row }

/-- Any stored rows, no request under way and no raise yet. -/
def usage : System UsageState UsageLabel where
  initial state :=
    (∀ caller, state.requests caller = .idle) ∧ state.locks = Ledger.fresh ∧ state.raises = []
  step := usageStep

end Flair.Usage
