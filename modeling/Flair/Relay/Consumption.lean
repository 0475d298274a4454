import Flair.Federation.AgentMerges
import Flair.Relay.Requests
import Flair.WriteBack.Plans

/-! The Message rows of one store under any number of `relayConsume`,
`relaySweepDeadlines` and federation merges, one transition for each awaited step. Follows
`resources/relay-ops.ts` and the Message merge of `resources/Federation.ts`.
-/

namespace Flair.Relay

open Dynamic Transition Federation

-- The writers

/-- What a writer answers: a refusal with its status and error, a handler that threw, the
consumed row, the number of failed rows, or a merge's outcome.
-/
inductive RelayAnswer where
  | refused (status : Nat) (error : String)
  | threw
  | row (row : Record)
  | swept (failed : Nat)
  | offered (outcome : MergeOutcome)
deriving DecidableEq

def unauth : RelayAnswer := .refused 401 "authentication required"

def notFound : RelayAnswer := .refused 404 "not found"

def consumedRow (row : Record) (now : String) : Record :=
  (row.set "state" ((reconcileState (row.get "state") (some consumed)).getD .null)).set
    "consumedAt" (.str now)

def sweptRow (row : Record) (now : Int) : Option Record :=
  (sweepDecision row now).bind fun failureReason =>
    if reconcileState (row.get "state") (some failed) = some failed then
      some ((row.set "state" failed).set "failureReason" (.str failureReason))
    else none

/-- `byId.set(id, row)`: a row found again replaces the earlier copy in its place. -/
def setFound (id : String) (row : Record) : List (String × Record) → List (String × Record)
  | [] => [(id, row)]
  | (other, earlier) :: rest =>
    if other = id then (id, row) :: rest else (other, earlier) :: setFound id row rest

/-- The state a sweep's search is querying. -/
inductive SweptState where
  | submitted
  | delivered
deriving DecidableEq

def SweptState.value : SweptState → Value
  | .submitted => Relay.submitted
  | .delivered => Relay.delivered

/-- Where a writer is between two of its awaited steps. A sweep holds the rows its searches
have yielded, then those it still has to put; a merge is inside the write-back helper.
-/
inductive RelayStage where
  | idle
  | consuming (auth : AgentAuthVerdict) (id : String)
  | acking (id : String) (copy : Record) (now : String)
  | searching (now : Int) (state : SweptState) (found : List (String × Record))
  | failing (left : List (String × Record)) (failed : Nat)
  | offering (record : SyncRecord)
  | merging (record : SyncRecord) (call : WriteBack.Call) (helper : WriteBack.State)
  | answered (answer : RelayAnswer)

structure RelayState where
  rows : String → Option Record
  stage : Nat → RelayStage

inductive RelayLabel where
  | consume (writer : Nat) (auth : AgentAuthVerdict) (id : String)
  | readMessage (writer : Nat) (now : String) (readable : Bool)
  | ack (writer : Nat) (landed resolves : Bool)
  | sweep (writer : Nat) (auth : AgentAuthVerdict) (now : Int)
  | yields (writer : Nat) (id : String)
  | searchEnds (writer : Nat)
  | searchFails (writer : Nat)
  | putFailed (writer : Nat) (landed resolves : Bool)
  | offer (writer : Nat) (record : SyncRecord)
  | readLocal (writer : Nat) (receipt : Receipt) (readable : Bool)
  | writeBack (writer : Nat) (step : WriteBack.Label)

-- Steps

def RelayState.goto (state : RelayState) (writer : Nat) (stage : RelayStage) : RelayState :=
  { state with stage := Function.update state.stage writer stage }

/-- `put(row)` under the row's id; the store may drop it. -/
def RelayState.put (state : RelayState) (id : String) (row : Record) (landed : Bool)
    : RelayState :=
  if landed then { state with rows := Function.update state.rows id (some row) } else state

def consumeArrival (auth : AgentAuthVerdict) (id : String) : RelayStage :=
  if auth = .anonymous then .answered unauth
  else if id = "" then .answered (.refused 400 "missing message id")
  else .consuming auth id

def isRecipient (auth : AgentAuthVerdict) (row : Record) : Bool :=
  match auth with
  | .agent agentId false => decide (row.get "to" = some (.str agentId))
  | _ => true

def consumeRead (auth : AgentAuthVerdict) (id now : String) : Option Record → RelayStage
  | none => .answered notFound
  | some row =>
    if !isRecipient auth row then .answered notFound
    else if row.get "state" = some consumed then .answered (.row row)
    else .acking id row now

def sweepArrival (auth : AgentAuthVerdict) (now : Int) : RelayStage :=
  match auth with
  | .anonymous => .answered unauth
  | .agent _ false =>
    .answered (.refused 403 "forbidden: deadline sweep is an administrative operation")
  | _ => .searching now .submitted []

def sweepStage (left : List (String × Record)) (failed : Nat) : RelayStage :=
  match left with
  | [] => .answered (.swept failed)
  | _ => .failing left failed

/-- The rows a sweep goes on to put, of those its searches have yielded. -/
def sweptRows (now : Int) (found : List (String × Record)) : List (String × Record) :=
  found.filterMap fun (id, row) => (sweptRow row now).map (Prod.mk id)

def searchedStage (now : Int) (found : List (String × Record)) : SweptState → RelayStage
  | .submitted => .searching now .delivered found
  | .delivered => sweepStage (sweptRows now found) 0

def offerRead (record : SyncRecord) (receipt : Receipt) (localRow : Option Record)
    : RelayStage :=
  match prepareMerge receipt record localRow with
  | .error reason => .answered (.offered (.refused reason))
  | .ok call => .merging record call {
      stored := localRow
      basis := none
      attempt := 1
      phase := .selecting
      log := [] }

def writeBackStep (state : RelayState) (writer : Nat) (step : WriteBack.Label)
    : Option RelayState :=
  match state.stage writer, step with
  | _, .other _ => none
  | .merging record call helper, step =>
    (WriteBack.step call { helper with stored := state.rows record.id } step).map
      fun next =>
        { state with rows := Function.update state.rows record.id next.stored }.goto writer
          (.merging record call next)
  | _, _ => none

def relayStep (state : RelayState) : RelayLabel → Option RelayState
  | .consume writer auth id =>
    match state.stage writer with
    | .idle => some (state.goto writer (consumeArrival auth id))
    | _ => none
  | .readMessage writer now readable =>
    match state.stage writer with
    | .consuming auth id =>
      some (state.goto writer
        (consumeRead auth id now (if readable then state.rows id else none)))
    | _ => none
  | .ack writer landed resolves =>
    match state.stage writer with
    | .acking id copy now =>
      let answer := if resolves then .row (consumedRow copy now) else .threw
      some ((state.put id (consumedRow copy now) landed).goto writer (.answered answer))
    | _ => none
  | .sweep writer auth now =>
    match state.stage writer with
    | .idle => some (state.goto writer (sweepArrival auth now))
    | _ => none
  | .yields writer id =>
    match state.stage writer, state.rows id with
    | .searching now wanted found, some row =>
      if row.get "state" = some wanted.value then
        some (state.goto writer (.searching now wanted (setFound id row found)))
      else none
    | _, _ => none
  | .searchEnds writer =>
    match state.stage writer with
    | .searching now wanted found =>
      some (state.goto writer (searchedStage now found wanted))
    | _ => none
  | .searchFails writer =>
    match state.stage writer with
    | .searching _ _ _ => some (state.goto writer (.answered .threw))
    | _ => none
  | .putFailed writer landed resolves =>
    match state.stage writer with
    | .failing ((id, row) :: left) failed =>
      let next := if resolves then sweepStage left (failed + 1) else .answered .threw
      some ((state.put id row landed).goto writer next)
    | _ => none
  | .offer writer record =>
    match state.stage writer with
    | .idle =>
      if record.table = SyncTable.message.name then
        some (state.goto writer (.offering record))
      else none
    | _ => none
  | .readLocal writer receipt readable =>
    match state.stage writer with
    | .offering record =>
      some (state.goto writer
        (if readable then offerRead record receipt (state.rows record.id)
          else .answered (.offered (.refused .mergeError))))
    | _ => none
  | .writeBack writer step => writeBackStep state writer step

def relay : System RelayState RelayLabel where
  initial state := ∀ writer, state.stage writer = .idle
  step := relayStep

-- Consumed rows

/-- The row's consumption stamp; `null` and an absent field are no stamp. -/
def stampOf (row : Record) : Option Value :=
  if isNullish (row.get "consumedAt") then none else row.get "consumedAt"

def ConsumedWith (stored : Option Record) (stamp : Option Value) : Prop :=
  ∃ row, stored = some row ∧ row.get "state" = some consumed ∧ stampOf row = stamp

def bringsStamp (record : SyncRecord) (row : Record) : Bool :=
  decide (stampOf row = none ∧ textLt (storedUpdatedAt row) record.updatedAtText
    ∧ stampOf record.data ≠ none)

/-- No put lands on a consumed row its writer has not read: not a consume's, unless its
clock is the row's own stamp, not a sweep's, and not a merge's, which brings no stamp either.
-/
def keepsConsumed (state : RelayState) : RelayLabel → Bool
  | .ack writer true _ =>
    match state.stage writer with
    | .acking id _ now =>
      (state.rows id).all fun row =>
        decide (row.get "state" = some consumed → stampOf row = some (.str now))
    | _ => true
  | .putFailed writer true _ =>
    match state.stage writer with
    | .failing ((id, _) :: _) _ =>
      (state.rows id).all fun row => decide (row.get "state" ≠ some consumed)
    | _ => true
  | .writeBack writer (.commit _ true) =>
    match state.stage writer with
    | .merging record _ helper =>
      match helper.phase with
      | .confirmed confirmed _ _ =>
        (state.rows record.id).all fun row =>
          decide (row.get "state" = some consumed
            → confirmed = some row ∧ bringsStamp record row = false)
      | _ => true
    | _ => true
  | _ => true

abbrev KeepsConsumed : Guard RelayState RelayLabel :=
  fun state label => keepsConsumed state label = true

-- What a merge has planned

def mergedMessage (receipt : Receipt) (record : SyncRecord) (originator : String)
    (row : Option Record)
    : Record :=
  reconcileMessage (stampSync receipt originator (mergeRecord row record)) row

structure HelperSound (record : SyncRecord) (call : WriteBack.Call)
    (helper : WriteBack.State) (localRow : Option Record)
    : Prop where
  built : ∃ receipt originator, call = mergeCall localRow
    (mergePlan receipt .message record (stampSync receipt originator
      (mergeRecord localRow record)))
  selected : WriteBack.Selected call localRow helper
  planned : WriteBack.PlannedOn call localRow helper

variable {localRow row : Option Record}

theorem eq_of_sameTarget {plan : Option Record → WriteBack.Plan}
    (h : (mergeCall localRow plan).sameTarget localRow row = true)
    : row = localRow := by
  cases row with
  | none =>
    cases localRow with
    | none => rfl
    | some basis => simp [WriteBack.Call.sameTarget] at h
  | some row =>
    cases localRow with
    | none => simp [WriteBack.Call.sameTarget] at h
    | some basis =>
      simp only [WriteBack.Call.sameTarget, mergeCall, Bool.and_eq_true] at h
      have whole : row = basis := by simpa using h.1.2
      rw [whole]

variable {record : SyncRecord}

theorem HelperSound.confirmed_local {call : WriteBack.Call} {helper : WriteBack.State}
    {plan : WriteBack.Plan} {writeId : String} (h : HelperSound record call helper localRow)
    (at_confirmed : helper.phase = .confirmed row plan writeId)
    : row = localRow := by
  obtain ⟨⟨receipt, originator, rfl⟩, -, planned⟩ := h
  obtain ⟨-, target⟩ := planned row plan (by rw [at_confirmed]; rfl)
  exact eq_of_sameTarget target

theorem HelperSound.confirmed {call : WriteBack.Call} {helper : WriteBack.State}
    {plan : WriteBack.Plan} {writeId : String} (h : HelperSound record call helper localRow)
    (at_confirmed : helper.phase = .confirmed row plan writeId)
    : ∃ receipt originator, plan = .write (mergedMessage receipt record originator row)
        .idempotent := by
  obtain rfl := h.confirmed_local at_confirmed
  obtain ⟨⟨receipt, originator, rfl⟩, -, planned⟩ := h
  obtain ⟨⟨attempt, answered⟩, -⟩ := planned _ plan (by rw [at_confirmed]; rfl)
  exact ⟨receipt, originator, (Option.some.inj answered).symm⟩

def RelayStage.Sound : RelayStage → Prop
  | .offering record => record.table = SyncTable.message.name
  | .merging record call helper => ∃ localRow, HelperSound record call helper localRow
  | _ => True

def MergesSound (state : RelayState) : Prop := ∀ writer, (state.stage writer).Sound

/-- The consumed rows of the first store are the second's too, with their stamps. -/
def KeepsRows (before after : RelayState) : Prop :=
  ∀ id stamp, ConsumedWith (before.rows id) stamp → ConsumedWith (after.rows id) stamp

structure StepSound (before : RelayState) (label : RelayLabel) (after : RelayState) : Prop where
  merges : MergesSound after
  rows : KeepsConsumed before label → KeepsRows before after

variable {state : RelayState} {label : RelayLabel} {writer : Nat}

theorem MergesSound.goto (h : MergesSound state) {stage : RelayStage} (sound : stage.Sound)
    : StepSound state label (state.goto writer stage) := by
  refine ⟨?_, fun _ _ _ kept => kept⟩
  intro other
  simp only [RelayState.goto, Function.update_apply]
  split
  · exact sound
  · exact h other

theorem MergesSound.write (h : MergesSound state) {stage : RelayStage} {id : String}
    {stored : Option Record} (sound : stage.Sound)
    (kept : KeepsConsumed state label
      → ∀ stamp, ConsumedWith (state.rows id) stamp → ConsumedWith stored stamp)
    : StepSound state label
        ({ state with rows := Function.update state.rows id stored }.goto writer stage) := by
  have moved : StepSound state label (state.goto writer stage) := h.goto sound
  refine ⟨moved.merges, ?_⟩
  intro allowed other stamp before
  simp only [RelayState.goto, Function.update_apply]
  split
  · rename_i same
    subst same
    exact kept allowed stamp before
  · exact before

theorem offerRead_cases (receipt : Receipt) (localRow : Option Record)
    (message : record.table = SyncTable.message.name)
    : (∃ reason, offerRead record receipt localRow = .answered (.offered (.refused reason)))
      ∨ ∃ call helper, offerRead record receipt localRow = .merging record call helper
        ∧ HelperSound record call helper localRow := by
  unfold offerRead
  split
  · exact Or.inl ⟨_, rfl⟩
  rename_i call prepared
  have generic : record.table ≠ "Presence" := by
    rw [message]
    decide
  obtain ⟨table, originator, merged, ready, rfl⟩ := prepareMerge_ok generic prepared
  have same : table = .message := by
    have known := ready.admission.known
    rw [message, SyncTable.ofName_name] at known
    exact (Option.some.inj known).symm
  subst same
  obtain rfl := Except.ok.inj ready.merging
  exact Or.inr ⟨_, _, rfl, ⟨receipt, originator, rfl⟩, ⟨rfl, Or.inl rfl⟩, .of_unheld rfl⟩

def sweepLabels (writer : Nat) : List RelayLabel :=
  [.sweep writer .internal 1756684800000, .searchEnds writer, .yields writer "m-1",
    .searchEnds writer]

end Flair.Relay
