import Flair.Relay.Consumption
import Flair.Relay.SendSafety

/-! The failure reason of a Message row beside its state, under any number of sends,
consumes, deadline sweeps and federation merges over one table. Follows
`resources/relay-ops.ts` and the Message merge of `resources/Federation.ts`.
-/

namespace Flair.Relay

open Dynamic Transition Federation KeyLedger

-- One table, every writer

structure MessagesState where
  table : MessageTable
  ledger : Ledger SendKey Nat
  sends : Nat → SendStage
  writers : Nat → RelayStage

inductive MessagesLabel where
  | send (label : SendLabel)
  | relay (label : RelayLabel)

def MessagesState.sending (state : MessagesState) : SendState where
  table := state.table
  ledger := state.ledger
  stage := state.sends

def MessagesState.relaying (state : MessagesState) : RelayState where
  rows id := state.table.lookup id
  stage := state.writers

def RelayLabel.target (state : RelayState) : RelayLabel → Option String
  | .ack writer _ _ =>
    match state.stage writer with
    | .acking id _ _ => some id
    | _ => none
  | .putFailed writer _ _ =>
    match state.stage writer with
    | .failing ((id, _) :: _) _ => some id
    | _ => none
  | .writeBack writer _ =>
    match state.stage writer with
    | .merging record _ _ => some record.id
    | _ => none
  | _ => none

def MessageTable.store (table : MessageTable) (id : String) : Option Record → MessageTable
  | some row => table.insert id row
  | none => table.erase id

def messagesStep (signing : Signing) (caps : Caps) (state : MessagesState)
    : MessagesLabel → Option MessagesState
  | .send label =>
    (sendStep signing caps state.sending label).map fun next =>
      { state with table := next.table, ledger := next.ledger, sends := next.stage }
  | .relay label =>
    (relayStep state.relaying label).map fun next => {
      state with
      table :=
        match label.target state.relaying with
        | some id => state.table.store id (next.rows id)
        | none => state.table
      writers := next.stage }

def ReasonMatches (row : Record) : Prop :=
  isNullish (row.get "failureReason") = false ↔ row.get "state" = some failed

instance (row : Record) : Decidable (ReasonMatches row) :=
  inferInstanceAs (Decidable (_ ↔ _))

def messages (signing : Signing) (caps : Caps) : System MessagesState MessagesLabel where
  initial state :=
    (∀ id row, state.table.lookup id = some row → ReasonMatches row)
    ∧ (∀ caller, state.sends caller = .idle) ∧ ∀ writer, state.writers writer = .idle
  step := messagesStep signing caps

-- What each writer puts

theorem reasonMatches_of_absent {row : Record} (reason : isNullish (row.get "failureReason") = true)
    (state : row.get "state" ≠ some failed)
    : ReasonMatches row := by
  simp [ReasonMatches, reason, state]

theorem deliveredRow_matches (content : Record) (now : String)
    : ReasonMatches (deliveredRow content now) := by
  refine reasonMatches_of_absent ?_ ?_
  · simp [deliveredRow, isNullish]
  · simp [deliveredRow, delivered, failed]

theorem consumedRow_matches {copy : Record} (copyMatches : ReasonMatches copy)
    (unfailed : copy.get "state" ≠ some failed) (now : String)
    : ReasonMatches (consumedRow copy now) := by
  have absent : isNullish (copy.get "failureReason") = true := by
    simpa [ReasonMatches, unfailed] using copyMatches
  refine reasonMatches_of_absent ?_ ?_
  · simpa [consumedRow] using absent
  · rw [consumedRow, Record.get_set, if_neg (by decide), Record.get_set, if_pos rfl,
      reconcileState_consumed_right]
    decide

theorem sweptRow_matches {row swept : Record} {now : Int} (h : sweptRow row now = some swept)
    : ReasonMatches swept := by
  obtain ⟨reason, -, put⟩ := Option.bind_eq_some_iff.mp h
  split at put
  · cases put
    simp [ReasonMatches, isNullish]
  · cases put

def wins (record : SyncRecord) (row : Option Record) : Bool :=
  row.all fun row => decide (textLt (storedUpdatedAt row) record.updatedAtText)

/-- Merging the record keeps the two fields together: it loses, or one side is consumed; over
a failed row it does not clear the reason; and over any other row its own fields match.
-/
def mergeKeepsReason (record : SyncRecord) (row : Option Record) : Bool :=
  let localState := row.bind fun row => row.get "state"
  !wins record row
  || decide (localState = some consumed ∨ record.data.get "state" = some consumed)
  || if localState = some failed then decide (record.data.get "failureReason" ≠ some .null)
    else decide (ReasonMatches record.data)

theorem reconcileMessage_state (merged : Record) (row : Option Record)
    : (reconcileMessage merged row).get "state"
      = reconcileState (row.bind fun row => row.get "state") (merged.get "state") := by
  unfold reconcileMessage
  cases reconciled : reconcileState (row.bind fun row => row.get "state") (merged.get "state")
    with
  | none =>
    simp only [reconciled]
    unfold reconcileState at reconciled
    split at reconciled
    · cases reconciled
    · split at reconciled
      · cases reconciled
      · exact reconciled
  | some state =>
    simp only [reconciled]
    split <;> simp

theorem reconcileMessage_reason (merged : Record) (row : Option Record)
    : (reconcileMessage merged row).get "failureReason"
      = if reconcileState (row.bind fun row => row.get "state") (merged.get "state")
            = some consumed then some .null
        else merged.get "failureReason" := by
  unfold reconcileMessage
  cases reconciled : reconcileState (row.bind fun row => row.get "state") (merged.get "state")
    with
  | none => simp [reconciled]
  | some state =>
    by_cases absorbed : state = consumed
    · simp [reconciled, absorbed]
    · simp [reconciled, absorbed]

theorem reconciled_matches {localState state reason : Option Value}
    (fits : localState = some consumed ∨ state = some consumed
      ∨ if localState = some failed then isNullish reason = false
        else (isNullish reason = false ↔ state = some failed))
    : isNullish (if reconcileState localState state = some consumed then some .null else reason)
        = false
      ↔ reconcileState localState state = some failed := by
  have apart : some consumed ≠ some failed := by decide
  by_cases absorbed : localState = some consumed ∨ state = some consumed
  · have reconciled : reconcileState localState state = some consumed := by
      rw [reconcileState, if_pos absorbed]
    rw [reconciled, if_pos rfl]
    simp [isNullish, apart]
  · have fits := (or_assoc.mpr fits).resolve_left absorbed
    by_cases lost : localState = some failed
    · have reconciled : reconcileState localState state = some failed := by
        rw [reconcileState, if_neg absorbed, if_pos lost]
      rw [if_pos lost] at fits
      rw [reconciled, if_neg apart.symm]
      simp [fits]
    · have reconciled : reconcileState localState state = state := by
        rw [reconcileState, if_neg absorbed, if_neg lost]
      rw [if_neg lost] at fits
      rw [reconciled, if_neg (fun consumes => absorbed (Or.inr consumes))]
      exact fits

variable {record : SyncRecord}

theorem get_mergeRecord_wins {row : Option Record} (newer : wins record row = true) {field : String}
    (plain : field ≠ "visibility") (other : field ≠ "updatedAt")
    : (mergeRecord row record).get field
      = (record.data.get field).or (row.bind fun row => row.get field) := by
  cases row with
  | none => simp [mergeRecord]
  | some stored =>
    have newer : textLt (storedUpdatedAt stored) record.updatedAtText := by
      simpa [wins] using newer
    simp only [mergeRecord, newer, if_true]
    split <;> simp [plain, other]

theorem mergedMessage_matches (receipt : Receipt) (originator : String) {row : Option Record}
    (rowMatches : ∀ stored, row = some stored → ReasonMatches stored)
    (keeps : mergeKeepsReason record row = true)
    : ReasonMatches (mergedMessage receipt record originator row) := by
  have states : (stampSync receipt originator (mergeRecord row record)).get "state"
      = (mergeRecord row record).get "state" := get_stampSync _ _ _ (by decide)
  have reasons : (stampSync receipt originator (mergeRecord row record)).get "failureReason"
      = (mergeRecord row record).get "failureReason" := get_stampSync _ _ _ (by decide)
  rw [ReasonMatches, mergedMessage, reconcileMessage_state, reconcileMessage_reason, states,
    reasons]
  apply reconciled_matches
  cases newer : wins record row with
  | false =>
    cases row with
    | none => simp [wins] at newer
    | some stored =>
      have older : ¬ textLt (storedUpdatedAt stored) record.updatedAtText := by
        simpa [wins] using newer
      have same : mergeRecord (some stored) record = stored := by simp [mergeRecord, older]
      have stays : ReasonMatches stored := rowMatches stored rfl
      rw [same, Option.bind_some]
      by_cases lost : stored.get "state" = some failed
      · rw [if_pos lost]
        exact Or.inr (Or.inr (stays.mpr lost))
      · rw [if_neg lost]
        exact Or.inr (Or.inr stays)
  | true =>
    rw [get_mergeRecord_wins newer (by decide) (by decide),
      get_mergeRecord_wins newer (by decide) (by decide)]
    simp only [mergeKeepsReason, newer, Bool.not_true, Bool.false_or, Bool.or_eq_true,
      decide_eq_true_eq] at keeps
    rcases keeps with (absorbed | absorbed) | fits
    · exact Or.inl absorbed
    · rw [absorbed]
      exact Or.inr (Or.inl rfl)
    right
    right
    by_cases lost : (row.bind fun row => row.get "state") = some failed
    · rw [if_pos lost] at fits ⊢
      obtain ⟨stored, rfl, failedHere⟩ := Option.bind_eq_some_iff.mp lost
      have there : isNullish (stored.get "failureReason") = false :=
        (rowMatches stored rfl).mpr failedHere
      have kept : record.data.get "failureReason" ≠ some .null := by simpa using fits
      cases carried : record.data.get "failureReason" with
      | none => simpa using there
      | some reason =>
        rw [carried] at kept
        cases reason <;> simp_all [isNullish]
    · rw [if_neg lost] at fits ⊢
      have own : ReasonMatches record.data := by simpa using fits
      have bare : isNullish (row.bind fun row => row.get "failureReason") = true := by
        cases row with
        | none => rfl
        | some stored =>
          rw [Option.bind_some] at lost
          simpa [ReasonMatches, lost] using rowMatches stored rfl
      rw [ReasonMatches] at own
      cases data : record.data.get "state" with
      | none =>
        rw [data] at own
        cases carried : record.data.get "failureReason" with
        | none => simp [bare, lost]
        | some reason =>
          rw [carried] at own
          simpa [lost] using own
      | some state =>
        rw [data] at own
        cases carried : record.data.get "failureReason" with
        | none =>
          have unfailed : state ≠ failed := by simpa [carried, isNullish] using own
          simp [bare, unfailed]
        | some reason =>
          rw [carried] at own
          simpa using own

-- The condition

/-- No consume puts back a copy it read as failed, and no merge lands a record that breaks
the two fields apart.
-/
def keepsReason (state : RelayState) : RelayLabel → Bool
  | .ack writer true _ =>
    match state.stage writer with
    | .acking _ copy _ => decide (copy.get "state" ≠ some failed)
    | _ => true
  | .writeBack writer (.commit _ true) =>
    match state.stage writer with
    | .merging record _ helper =>
      match helper.phase with
      | .confirmed row _ _ => mergeKeepsReason record row
      | _ => true
    | _ => true
  | _ => true

def messagesKeepReason (state : MessagesState) : MessagesLabel → Bool
  | .send _ => true
  | .relay label => keepsReason state.relaying label

abbrev KeepsReason : Guard MessagesState MessagesLabel :=
  fun state label => messagesKeepReason state label = true

-- One step of a consume, a sweep or a merge

/-- What a writer is about to put matches; a merge's local row does. -/
def RelayStage.Matches : RelayStage → Prop
  | .acking _ copy _ => ReasonMatches copy
  | .failing left _ => ∀ entry ∈ left, ReasonMatches entry.2
  | .offering record => record.table = SyncTable.message.name
  | .merging record call helper =>
    ∃ localRow, HelperSound record call helper localRow
      ∧ ∀ stored, localRow = some stored → ReasonMatches stored
  | _ => True

structure RelayMatches (state : RelayState) : Prop where
  rows : ∀ id row, state.rows id = some row → ReasonMatches row
  stages : ∀ writer, (state.stage writer).Matches

variable {state : RelayState} {writer : Nat}

theorem RelayMatches.goto (h : RelayMatches state) {stage : RelayStage} (reads : stage.Matches)
    : RelayMatches (state.goto writer stage) := by
  refine ⟨h.rows, ?_⟩
  intro other
  simp only [RelayState.goto, Function.update_apply]
  split
  · exact reads
  · exact h.stages other

variable {id : String}

theorem RelayMatches.write (h : RelayMatches state) {stage : RelayStage} {stored : Option Record}
    (reads : stage.Matches) (puts : ∀ row, stored = some row → ReasonMatches row)
    : RelayMatches
        ({ state with rows := Function.update state.rows id stored }.goto writer stage) := by
  refine ⟨?_, (h.goto reads).stages⟩
  intro other row found
  simp only [RelayState.goto, Function.update_apply] at found
  split at found
  · exact puts row found
  · exact h.rows other row found

theorem matches_sweptRows (now : Int) (found : List (String × Record))
    : ∀ entry ∈ sweptRows now found, ReasonMatches entry.2 := by
  intro entry member
  obtain ⟨⟨id, row⟩, -, put⟩ := List.mem_filterMap.mp member
  obtain ⟨swept, fails, rfl⟩ := Option.map_eq_some_iff.mp put
  exact sweptRow_matches fails

theorem matches_sweepStage {left : List (String × Record)} (failed : Nat)
    (rows : ∀ entry ∈ left, ReasonMatches entry.2)
    : (sweepStage left failed).Matches := by
  cases left with
  | nil => trivial
  | cons entry rest => exact rows

theorem matches_consumeRead (auth : AgentAuthVerdict) (id now : String) {read : Option Record}
    (stored : ∀ row, read = some row → ReasonMatches row)
    : (consumeRead auth id now read).Matches := by
  unfold consumeRead
  split
  · trivial
  rename_i row
  split
  · trivial
  · split
    · trivial
    · exact stored row rfl

theorem matches_offerRead (receipt : Receipt) {localRow : Option Record}
    (message : record.table = SyncTable.message.name)
    (stored : ∀ row, localRow = some row → ReasonMatches row)
    : (offerRead record receipt localRow).Matches := by
  rcases offerRead_cases receipt localRow message with ⟨reason, refused⟩ | ⟨call, helper,
    begun, sound⟩
  · rw [refused]
    trivial
  · rw [begun]
    exact ⟨localRow, sound, stored⟩

variable {next : RelayState}

theorem writeBackStep_matches {step : WriteBack.Label} (h : RelayMatches state)
    (allowed : keepsReason state (.writeBack writer step) = true)
    (taken : writeBackStep state writer step = some next)
    : RelayMatches next := by
  unfold writeBackStep at taken
  split at taken
  · cases taken
  · rename_i record call helper at_merging own
    obtain ⟨inner, stepped, rfl⟩ := Option.map_eq_some_iff.mp taken
    have before := h.stages writer
    rw [at_merging] at before
    obtain ⟨localRow, sound, localMatches⟩ := before
    let current : WriteBack.State := { helper with stored := state.rows record.id }
    have based : WriteBack.Selected call localRow current := sound.selected
    have made : WriteBack.PlannedOn call localRow current := sound.planned
    obtain ⟨selected, planned, wrote⟩ :=
      WriteBack.step_selected (fun row same => own row same) based made stepped
    refine h.write ⟨localRow, ⟨sound.built, selected, planned⟩, localMatches⟩ ?_
    intro row put
    rcases wrote with same | ⟨confirmed, plan, writeId, resolves, rfl, at_confirmed, landed⟩
    · rw [same] at put
      exact h.rows record.id row put
    have at_phase : helper.phase = .confirmed confirmed plan writeId := at_confirmed
    obtain rfl := sound.confirmed_local at_phase
    obtain ⟨receipt, originator, rfl⟩ := sound.confirmed at_phase
    simp only [keepsReason, at_merging, at_phase] at allowed
    rw [landed] at put
    cases put
    exact mergedMessage_matches receipt originator localMatches allowed
  · cases taken

variable {label : RelayLabel}

theorem relayStep_matches (h : RelayMatches state) (allowed : keepsReason state label = true)
    (taken : relayStep state label = some next)
    : RelayMatches next := by
  cases label with
  | writeBack writer step => exact writeBackStep_matches h allowed taken
  | consume writer auth id =>
    simp only [relayStep] at taken
    split at taken
    · cases taken
      refine h.goto ?_
      unfold consumeArrival
      split
      · trivial
      · split <;> trivial
    · cases taken
  | readMessage writer now readable =>
    simp only [relayStep] at taken
    split at taken
    · rename_i auth id at_consuming
      cases taken
      refine h.goto (matches_consumeRead auth id now ?_)
      intro row read
      split at read
      · exact h.rows id row read
      · cases read
    · cases taken
  | ack writer landed resolves =>
    simp only [relayStep] at taken
    split at taken
    · rename_i id copy now at_acking
      cases taken
      cases landed with
      | false => exact h.goto trivial
      | true =>
        have copyMatches := h.stages writer
        rw [at_acking] at copyMatches
        simp only [keepsReason, at_acking, decide_eq_true_eq] at allowed
        refine h.write trivial ?_
        intro row put
        cases put
        exact consumedRow_matches copyMatches allowed now
    · cases taken
  | sweep writer auth now =>
    simp only [relayStep] at taken
    split at taken
    · cases taken
      refine h.goto ?_
      unfold sweepArrival
      split <;> trivial
    · cases taken
  | yields writer id =>
    simp only [relayStep] at taken
    split at taken
    · split at taken
      · cases taken
        exact h.goto trivial
      · cases taken
    · cases taken
  | searchEnds writer =>
    simp only [relayStep] at taken
    split at taken
    · rename_i now wanted found at_searching
      cases taken
      cases wanted with
      | submitted => exact h.goto trivial
      | delivered => exact h.goto (matches_sweepStage 0 (matches_sweptRows now found))
    · cases taken
  | searchFails writer =>
    simp only [relayStep] at taken
    split at taken
    · cases taken
      exact h.goto trivial
    · cases taken
  | putFailed writer landed resolves =>
    simp only [relayStep] at taken
    split at taken
    · rename_i id row left failed at_failing
      cases taken
      have rows := h.stages writer
      rw [at_failing] at rows
      have goes : (if resolves then sweepStage left (failed + 1)
          else .answered .threw).Matches := by
        split
        · exact matches_sweepStage _ fun entry member =>
            rows entry (List.mem_cons_of_mem _ member)
        · trivial
      cases landed with
      | false => exact h.goto goes
      | true =>
        refine h.write goes ?_
        intro swept put
        cases put
        exact rows (id, _) (List.mem_cons_self ..)
    · cases taken
  | offer writer record =>
    simp only [relayStep] at taken
    split at taken
    · split at taken
      · rename_i message
        cases taken
        exact h.goto message
      · cases taken
    · cases taken
  | readLocal writer receipt readable =>
    simp only [relayStep] at taken
    split at taken
    · rename_i record at_offering
      cases taken
      have message := h.stages writer
      rw [at_offering] at message
      refine h.goto ?_
      split
      · exact matches_offerRead receipt message (h.rows record.id)
      · trivial
    · cases taken

-- One step of a send

def SendStage.Matches : SendStage → Prop
  | .storing _ row => ReasonMatches row
  | _ => True

theorem matches_lockedStage (content : MessageEnvelope) (taken left : List SendKey)
    : (lockedStage content taken left).Matches := by
  cases left <;> trivial

theorem matches_releaseStage (taken : List SendKey) (answer : SendAnswer)
    : (releaseStage taken answer).Matches := by
  cases taken <;> trivial

variable {caps : Caps}

theorem matches_decidedStage (content : MessageEnvelope) (snapshot : MessageTable) (now : String)
    (searchable : Bool)
    : (decidedStage content (decideSend caps content snapshot now searchable)).Matches := by
  cases decided : decideSend caps content snapshot now searchable with
  | answer answer => trivial
  | store row =>
    obtain ⟨stamp, rfl⟩ := (acceptable_of_store decided).delivers
    exact deliveredRow_matches content.fields stamp

variable {signing : Signing}

theorem sendStep_stage {state next : SendState} {label : SendLabel}
    (taken : sendStep signing caps state label = some next)
    : ∃ stage : SendStage, stage.Matches
      ∧ next.stage = Function.update state.stage label.caller stage := by
  cases label with
  | post caller auth content =>
    simp only [sendStep] at taken
    split at taken
    · cases taken
      refine ⟨_, ?_, rfl⟩
      split <;> trivial
    · cases taken
  | verify caller org publicKey =>
    simp only [sendStep] at taken
    split at taken
    · cases taken
      refine ⟨_, ?_, rfl⟩
      split <;> trivial
    · cases taken
  | lockMissing caller =>
    simp only [sendStep] at taken
    split at taken
    · cases taken
      refine ⟨_, ?_, rfl⟩
      trivial
    · cases taken
  | take caller =>
    simp only [sendStep, takeKey] at taken
    split at taken
    · split at taken
      · cases taken
        exact ⟨_, matches_lockedStage _ _ _, rfl⟩
      cases taken
      refine ⟨_, ?_, rfl⟩
      split
      · trivial
      · exact matches_releaseStage _ _
    · cases taken
  | readId caller readable =>
    simp only [sendStep] at taken
    split at taken
    · cases taken
      refine ⟨_, ?_, rfl⟩
      split <;> trivial
    · cases taken
  | decide caller now searchable =>
    simp only [sendStep] at taken
    split at taken
    · rename_i content snapshot at_deciding
      cases taken
      exact ⟨_, matches_decidedStage content snapshot now searchable, rfl⟩
    · cases taken
  | commit caller landed resolves =>
    simp only [sendStep] at taken
    split at taken
    · cases taken
      refine ⟨_, ?_, rfl⟩
      trivial
    · cases taken
  | release caller =>
    simp only [sendStep] at taken
    split at taken
    · cases taken
      exact ⟨_, matches_releaseStage _ _, rfl⟩
    · cases taken

-- Every run

/-- Every stored row, and every row a writer has read or is about to put, matches. -/
structure MessagesMatch (state : MessagesState) : Prop where
  relaying : RelayMatches state.relaying
  sends : ∀ caller, (state.sends caller).Matches

@[simp] theorem MessageTable.lookup_store (table : MessageTable) (id other : String)
    (stored : Option Record)
    : (table.store id stored).lookup other = if other = id then stored else table.lookup other := by
  cases stored with
  | some row =>
    by_cases same : other = id
    · subst same
      simp [MessageTable.store]
    · simp [MessageTable.store, same, AList.lookup_insert_ne]
  | none =>
    by_cases same : other = id
    · subst same
      simp [MessageTable.store]
    · simp [MessageTable.store, same, AList.lookup_erase_ne]

theorem rows_goto (state : RelayState) (writer : Nat) (stage : RelayStage)
    : (state.goto writer stage).rows = state.rows := rfl

theorem rows_put {target : String} (row : Record) (landed : Bool) (other : some target ≠ some id)
    : (state.put target row landed).rows id = state.rows id := by
  have apart : id ≠ target := fun same => other (congrArg some same.symm)
  cases landed with
  | false => rfl
  | true => exact Function.update_of_ne apart _ _

theorem relayStep_rows (taken : relayStep state label = some next)
    (other : label.target state ≠ some id)
    : next.rows id = state.rows id := by
  cases label with
  | ack writer landed resolves =>
    simp only [relayStep] at taken
    split at taken
    · rename_i target copy now at_acking
      cases taken
      simp only [RelayLabel.target, at_acking] at other
      rw [rows_goto, rows_put _ landed other]
    · cases taken
  | putFailed writer landed resolves =>
    simp only [relayStep] at taken
    split at taken
    · rename_i target row left failed at_failing
      cases taken
      simp only [RelayLabel.target, at_failing] at other
      rw [rows_goto, rows_put _ landed other]
    · cases taken
  | writeBack writer step =>
    simp only [relayStep, writeBackStep] at taken
    split at taken
    · cases taken
    · rename_i record call helper at_merging own
      obtain ⟨inner, -, rfl⟩ := Option.map_eq_some_iff.mp taken
      simp only [RelayLabel.target, at_merging] at other
      have apart : id ≠ record.id := fun same => other (congrArg some same.symm)
      exact Function.update_of_ne apart _ _
    · cases taken
  | yields writer id =>
    simp only [relayStep] at taken
    split at taken
    · split at taken
      · cases taken
        rfl
      · cases taken
    · cases taken
  | offer writer record =>
    simp only [relayStep] at taken
    split at taken
    · split at taken
      · cases taken
        rfl
      · cases taken
    · cases taken
  | consume _ _ _ | readMessage _ _ _ | sweep _ _ _ | searchEnds _ | searchFails _
  | readLocal _ _ _ =>
    simp only [relayStep] at taken
    split at taken
    · cases taken
      rfl
    · cases taken

theorem messagesStep_relaying {state next : MessagesState}
    (taken : messagesStep signing caps state (.relay label) = some next)
    : relayStep state.relaying label = some next.relaying := by
  obtain ⟨inner, stepped, rfl⟩ := Option.map_eq_some_iff.mp taken
  have rows : ∀ id, inner.rows id = (match label.target state.relaying with
      | some target => state.table.store target (inner.rows target)
      | none => state.table).lookup id := by
    intro id
    cases target : label.target state.relaying with
    | none => exact relayStep_rows stepped (by simp [target])
    | some written =>
      by_cases same : id = written
      · simp [same]
      have kept : inner.rows id = state.relaying.rows id :=
        relayStep_rows stepped (by simp [target, Ne.symm same])
      dsimp only
      rw [MessageTable.lookup_store, if_neg same]
      exact kept
  rw [stepped]
  refine congrArg some ?_
  obtain ⟨innerRows, stage⟩ := inner
  simp only [MessagesState.relaying, RelayState.mk.injEq, and_true]
  exact funext rows

theorem MessagesMatch.step {state next : MessagesState} {label : MessagesLabel}
    (h : MessagesMatch state) (allowed : KeepsReason state label)
    (taken : messagesStep signing caps state label = some next)
    : MessagesMatch next := by
  cases label with
  | relay label =>
    have relaying := relayStep_matches h.relaying allowed (messagesStep_relaying taken)
    obtain ⟨inner, -, rfl⟩ := Option.map_eq_some_iff.mp taken
    exact ⟨relaying, h.sends⟩
  | send label =>
    obtain ⟨inner, stepped, rfl⟩ := Option.map_eq_some_iff.mp taken
    obtain ⟨stage, stageMatches, moved⟩ := sendStep_stage stepped
    refine ⟨⟨?_, h.relaying.stages⟩, ?_⟩
    · intro id row found
      rcases sendStep_table stepped with same | ⟨content, stored, at_storing, inserted⟩
      · refine h.relaying.rows id row ?_
        rw [← found]
        exact congrArg (fun table => AList.lookup id table) same.symm
      · have storedMatches := h.sends label.caller
        rw [show state.sends label.caller = _ from at_storing] at storedMatches
        have found : AList.lookup id inner.table = some row := found
        rw [inserted] at found
        by_cases same : id = content.text "id"
        · rw [same, AList.lookup_insert] at found
          cases found
          exact storedMatches
        · rw [AList.lookup_insert_ne same] at found
          exact h.relaying.rows id row found
    · intro caller
      show (inner.stage caller).Matches
      rw [moved, Function.update_apply]
      split
      · exact stageMatches
      · exact h.sends caller

def MessagesState.failure (state : MessagesState) : Option (Option Value × Option Value) :=
  (state.table.lookup "m-1").map fun row => (row.get "state", row.get "failureReason")

end Flair.Relay
