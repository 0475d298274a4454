import Flair.Federation.RetryRows

/-! Every row the sender's retry bookkeeping writes passes the checks of the sender and of the
receiver, a terminal row is never due, and a key is read back as the entry it was made of.
-/

namespace Flair.Federation

open Dynamic

-- Keys

structure RetryEntry.Named (entry : RetryEntry) : Prop where
  peerId : entry.peerId ≠ ""
  table : entry.table ≠ ""
  recordId : entry.recordId ≠ ""

def RetryEntry.keyText (entry : RetryEntry) : String :=
  JsonText.array [JsonText.quote entry.peerId, JsonText.quote entry.table,
    JsonText.quote entry.recordId]

def RetryEntry.key (entry : RetryEntry) : Except String String :=
  retryEntryKey (some (.str entry.peerId)) (some (.str entry.table))
    (some (.str entry.recordId))

theorem keyComponent_eq_ok {name : String} {value : Option Value} {text : String}
    : keyComponent name value = .ok text ↔ value = some (.str text) ∧ text ≠ "" := by
  unfold keyComponent
  split
  · rename_i held
    split
    · rename_i empty
      simp [empty]
    rename_i there
    constructor
    · intro same
      obtain rfl := Except.ok.inj same
      exact ⟨rfl, there⟩
    · rintro ⟨same, -⟩
      rw [Value.str.inj (Option.some.inj same)]
  · rename_i other
    simp only [reduceCtorEq, false_iff, not_and]
    intro same
    exact absurd same (other text)

theorem retryEntryKey_eq_ok {peerId table recordId : Option Value} {id : String}
    : retryEntryKey peerId table recordId = .ok id
      ↔ ∃ entry : RetryEntry, entry.Named ∧ peerId = some (.str entry.peerId)
          ∧ table = some (.str entry.table) ∧ recordId = some (.str entry.recordId)
          ∧ id = entry.keyText := by
  constructor
  · intro made
    obtain ⟨peer, peerRead, withPeer⟩ := bind_eq_ok.mp made
    obtain ⟨kind, tableRead, withTable⟩ := bind_eq_ok.mp withPeer
    cases recordRead : keyComponent "recordId" recordId with
    | error message =>
      rw [recordRead] at withTable
      cases withTable
    | ok record =>
      rw [recordRead] at withTable
      obtain ⟨rfl, peerThere⟩ := keyComponent_eq_ok.mp peerRead
      obtain ⟨rfl, tableThere⟩ := keyComponent_eq_ok.mp tableRead
      obtain ⟨rfl, recordThere⟩ := keyComponent_eq_ok.mp recordRead
      obtain rfl := Except.ok.inj withTable
      exact ⟨⟨peer, kind, record⟩, ⟨peerThere, tableThere, recordThere⟩, rfl, rfl, rfl, rfl⟩
  · rintro ⟨entry, named, rfl, rfl, rfl, rfl⟩
    simp [retryEntryKey, keyComponent, named.peerId, named.table, named.recordId, Except.bind,
      Except.map, RetryEntry.keyText]

theorem RetryEntry.key_of_named {entry : RetryEntry} (named : entry.Named)
    : entry.key = .ok entry.keyText :=
  retryEntryKey_eq_ok.mpr ⟨entry, named, rfl, rfl, rfl, rfl⟩

theorem parseRetryEntryKey_keyText {entry : RetryEntry} (named : entry.Named)
    : parseRetryEntryKey entry.keyText = some entry := by
  have chars : entry.keyText.toList
      = '[' :: (JsonText.quoteChars entry.peerId.toList
        ++ ',' :: (JsonText.quoteChars entry.table.toList
          ++ ',' :: (JsonText.quoteChars entry.recordId.toList ++ [']']))) := by
    simp [RetryEntry.keyText, JsonText.array, JsonText.quote, String.toList_ofList,
      List.intercalate_cons_cons]
  have components : ¬ (entry.peerId = "" ∨ entry.table = "" ∨ entry.recordId = "") := by
    simp [named.peerId, named.table, named.recordId]
  unfold parseRetryEntryKey
  rw [chars, JsonText.readMark_cons (by decide), Option.bind_some, JsonText.readText_quoteChars,
    Option.bind_some]
  dsimp only
  rw [JsonText.readMark_cons (by decide), Option.bind_some, JsonText.readText_quoteChars,
    Option.bind_some]
  dsimp only
  rw [JsonText.readMark_cons (by decide), Option.bind_some, JsonText.readText_quoteChars,
    Option.bind_some]
  dsimp only
  rw [JsonText.readMark_cons (by decide), Option.bind_some, if_neg (by simp), if_neg components]

theorem RetryEntry.keyText_inj {first second : RetryEntry} (named : first.Named)
    (other : second.Named) (same : first.keyText = second.keyText)
    : first = second := by
  have read := parseRetryEntryKey_keyText named
  rw [same, parseRetryEntryKey_keyText other] at read
  exact (Option.some.inj read).symm

-- What the checks ask of a row

def PassesChecks (row : Record) : Prop :=
  retryRowMalformedness row = none ∧ retryRowProblem row = none

variable {row : Record}

theorem retryRowProblemShared_eq_none {isKnownReason : Option Value → Bool}
    : retryRowProblemShared row isKnownReason = none
      ↔ ownKey row = true
        ∧ (row.get "state" = some pending ∨ row.get "state" = some terminal)
        ∧ (isNullish (row.get "lastReason") = true ∨ isKnownReason (row.get "lastReason") = true)
        ∧ outcomeFits row = true := by
  unfold retryRowProblemShared
  cases own : ownKey row with
  | false => simp
  | true =>
    by_cases state : row.get "state" = some pending ∨ row.get "state" = some terminal
    · have known : ¬ (row.get "state" ≠ some pending ∧ row.get "state" ≠ some terminal) := by
        rw [← not_or]
        exact not_not_intro state
      cases isNullish (row.get "lastReason") <;> cases isKnownReason (row.get "lastReason")
        <;> cases outcomeFits row <;> simp [state, known]
    · have unknown : row.get "state" ≠ some pending ∧ row.get "state" ≠ some terminal :=
        not_or.mp state
      simp [unknown]

theorem retryRowMalformedness_terminal (state : row.get "state" = some terminal)
    : retryRowMalformedness row = none ↔ retryRowProblemShared row isPendingReason = none := by
  have notPending : row.get "state" ≠ some pending := by
    rw [state]
    decide
  unfold retryRowMalformedness
  cases problem : retryRowProblemShared row isPendingReason with
  | none => simp [notPending]
  | some found => cases found <;> simp [notPending]

theorem retryRowConfirmation_empty (state : row.get "state" = some pending)
    : retryRowConfirmation ∅ (some row)
      = retryTerminalFields.find? fun field => !isNullish (row.get field) := by
  have unnamed : (confirmFields.find? fun field =>
      Record.has ∅ field
      && !strictEquals (some ((row.get field).getD .null))
        (some ((Record.get ∅ field).getD .null))) = none := by
    rw [List.find?_eq_none]
    intro field _
    simp [Record.has]
  simp only [retryRowConfirmation, unnamed, Option.none_or, if_pos state]

theorem shared_of_malformedness (well : retryRowMalformedness row = none)
    : retryRowProblemShared row isPendingReason = none := by
  unfold retryRowMalformedness at well
  cases problem : retryRowProblemShared row isPendingReason with
  | none => rfl
  | some found =>
    cases found with
    | outcomeMismatch =>
      by_cases state : row.get "state" = some pending
      · cases reason : isPendingReason (row.get "lastReason") with
        | false => simp [problem, state, reason] at well
        | true =>
          cases held : retryRowConfirmation ∅ (some row) with
          | none => simp [problem, state, reason, held] at well
          | some field => simp [problem, state, reason, held] at well
      · simp [problem, state] at well
    | _ => simp [problem] at well

theorem retryRowMalformedness_pending (state : row.get "state" = some pending)
    : retryRowMalformedness row = none
      ↔ ownKey row = true ∧ isPendingReason (row.get "lastReason") = true
        ∧ ∀ field ∈ retryTerminalFields, isNullish (row.get field) = true := by
  have empties : (retryTerminalFields.find? fun field => !isNullish (row.get field)) = none
      ↔ ∀ field ∈ retryTerminalFields, isNullish (row.get field) = true := by
    simp [List.find?_eq_none]
  constructor
  · intro well
    have problem := shared_of_malformedness well
    obtain ⟨own, -, -, -⟩ := retryRowProblemShared_eq_none.mp problem
    unfold retryRowMalformedness at well
    rw [retryRowConfirmation_empty state] at well
    cases reason : isPendingReason (row.get "lastReason") with
    | false => simp [problem, state, reason] at well
    | true =>
      refine ⟨own, rfl, empties.mp ?_⟩
      cases found : retryTerminalFields.find? fun field => !isNullish (row.get field) with
      | none => rfl
      | some field => simp [problem, state, reason, found] at well
  · rintro ⟨own, reason, empty⟩
    have resolution := empty "resolution" (by decide)
    have bound := empty "bound" (by decide)
    have fits : outcomeFits row = true := by simp [outcomeFits, state, resolution, bound]
    have problem : retryRowProblemShared row isPendingReason = none :=
      retryRowProblemShared_eq_none.mpr ⟨own, Or.inl state, Or.inr reason, fits⟩
    unfold retryRowMalformedness
    rw [retryRowConfirmation_empty state, empties.mpr empty]
    simp [problem, reason]

theorem pendingReason_known {value : Option Value} (reason : isPendingReason value = true)
    : ((asString value).any fun text =>
        (SkipReason.ofText text).isSome || localRetryReasons.contains text) = true := by
  have all : ∀ text ∈ memoryPendingReasons,
      ((SkipReason.ofText text).isSome || localRetryReasons.contains text) = true := by
    decide
  unfold isPendingReason isOneOf at reason
  cases read : asString value with
  | none => simp [read] at reason
  | some text =>
    rw [read, Option.any_some, List.contains_iff_mem] at reason
    exact all text reason

theorem receiver_accepts (well : retryRowMalformedness row = none)
    : retryRowProblem row = none := by
  obtain ⟨own, state, reason, fits⟩ :=
    retryRowProblemShared_eq_none.mp (shared_of_malformedness well)
  exact retryRowProblemShared_eq_none.mpr
    ⟨own, state, reason.imp_right pendingReason_known, fits⟩

-- The rows the sender writes

def WellFormedPending (row : Record) : Prop :=
  retryRowMalformedness row = none ∧ row.get "state" = some pending

theorem passes_pending_iff (state : row.get "state" = some pending) (own : ownKey row = true)
    (empty : ∀ field ∈ retryTerminalFields, isNullish (row.get field) = true)
    : PassesChecks row ↔ isPendingReason (row.get "lastReason") = true := by
  constructor
  · intro passes
    exact ((retryRowMalformedness_pending state).mp passes.1).2.1
  · intro reason
    have well := (retryRowMalformedness_pending state).mpr ⟨own, reason, empty⟩
    exact ⟨well, receiver_accepts well⟩

theorem ownKey_of_entry {entry : RetryEntry} (named : entry.Named)
    (peerId : row.get "peerId" = some (.str entry.peerId))
    (table : row.get "table" = some (.str entry.table))
    (recordId : row.get "recordId" = some (.str entry.recordId))
    (id : row.get "id" = some (.str entry.keyText))
    : ownKey row = true := by
  have made : retryEntryKey (row.get "peerId") (row.get "table") (row.get "recordId")
      = .ok entry.keyText :=
    retryEntryKey_eq_ok.mpr ⟨entry, named, peerId, table, recordId, rfl⟩
  simp [ownKey, made, id]

theorem WellFormedPending.entry (well : WellFormedPending row)
    : ∃ entry : RetryEntry, entry.Named ∧ row.get "peerId" = some (.str entry.peerId)
        ∧ row.get "table" = some (.str entry.table)
        ∧ row.get "recordId" = some (.str entry.recordId)
        ∧ row.get "id" = some (.str entry.keyText) := by
  obtain ⟨own, -, -⟩ := (retryRowMalformedness_pending well.2).mp well.1
  unfold ownKey at own
  split at own
  · rename_i id made
    obtain ⟨entry, named, peerId, table, recordId, rfl⟩ := retryEntryKey_eq_ok.mp made
    exact ⟨entry, named, peerId, table, recordId, of_decide_eq_true own⟩
  · cases own

theorem retryRowForRefusal_passes {input : RefusalRowInput}
    (written : retryRowForRefusal input = .ok row)
    : PassesChecks row ↔ input.reason ∈ memoryPendingReasons := by
  cases made : retryEntryKey (some (.str input.peerId)) (some (.str "Memory"))
      (some (.str input.recordId)) with
  | error message =>
    rw [retryRowForRefusal, made] at written
    cases written
  | ok id =>
    rw [retryRowForRefusal, made] at written
    obtain ⟨entry, named, peerId, table, recordId, rfl⟩ := retryEntryKey_eq_ok.mp made
    obtain rfl := Except.ok.inj written
    have reason : isPendingReason (some (.str input.reason)) = true
        ↔ input.reason ∈ memoryPendingReasons := by
      simp [isPendingReason, isOneOf, asString]
    rw [passes_pending_iff (by simp [Record.ofFields])
      (ownKey_of_entry named (by simpa [Record.ofFields] using peerId)
        (by simpa [Record.ofFields] using table) (by simpa [Record.ofFields] using recordId)
        (by simp [Record.ofFields]))
      (by simp [Record.ofFields, retryTerminalFields, isNullish]), ← reason]
    simp [Record.ofFields]

theorem retryRowForRefusal_pending {input : RefusalRowInput}
    (written : retryRowForRefusal input = .ok row)
    : row.get "state" = some pending := by
  unfold retryRowForRefusal at written
  cases made : retryEntryKey (some (.str input.peerId)) (some (.str "Memory"))
      (some (.str input.recordId)) with
  | error message =>
    rw [made] at written
    cases written
  | ok id =>
    rw [made] at written
    obtain rfl := Except.ok.inj written
    simp [Record.ofFields]

theorem retryRowForRefusal_writes (input : RefusalRowInput)
    : (∃ row, retryRowForRefusal input = .ok row)
      ↔ input.peerId ≠ "" ∧ input.recordId ≠ "" := by
  unfold retryRowForRefusal
  cases made : retryEntryKey (some (.str input.peerId)) (some (.str "Memory"))
      (some (.str input.recordId)) with
  | error message =>
    simp only [Except.map, reduceCtorEq, exists_false, false_iff, not_and]
    intro peerId recordId
    have named : RetryEntry.Named ⟨input.peerId, "Memory", input.recordId⟩ :=
      ⟨peerId, by simp, recordId⟩
    have key := RetryEntry.key_of_named named
    rw [RetryEntry.key, made] at key
    cases key
  | ok id =>
    obtain ⟨entry, named, peerId, -, recordId, rfl⟩ := retryEntryKey_eq_ok.mp made
    have peer : input.peerId = entry.peerId := by simpa using peerId
    have record : input.recordId = entry.recordId := by simpa using recordId
    rw [peer, record]
    exact ⟨fun _ => ⟨named.peerId, named.recordId⟩, fun _ => ⟨_, rfl⟩⟩

theorem retryRowForAttempt_passes (well : WellFormedPending row) (nowIso : String)
    : ∃ out, retryRowForAttempt row nowIso = .ok out ∧ PassesChecks out := by
  obtain ⟨entry, named, peerId, -, recordId, -⟩ := well.entry
  obtain ⟨-, reason, -⟩ := (retryRowMalformedness_pending well.2).mp well.1
  let offered : RetryEntry := { entry with table := "Memory" }
  have offeredNamed : offered.Named := ⟨named.peerId, by simp [offered], named.recordId⟩
  have made : retryEntryKey (row.get "peerId") (some (.str "Memory")) (row.get "recordId")
      = .ok offered.keyText :=
    retryEntryKey_eq_ok.mpr ⟨offered, offeredNamed, peerId, rfl, recordId, rfl⟩
  obtain ⟨text, held⟩ : ∃ text, asString (row.get "lastReason") = some text := by
    cases read : asString (row.get "lastReason") with
    | none => simp [isPendingReason, isOneOf, read] at reason
    | some text => exact ⟨text, rfl⟩
  have known : isPendingReason (some (.str text)) = true := by
    rw [← asString_eq_some.mp held]
    exact reason
  rw [retryRowForAttempt, made]
  refine ⟨_, rfl, ?_⟩
  rw [passes_pending_iff (by simp [Record.ofFields, held])
    (ownKey_of_entry offeredNamed (by simp [Record.ofFields, held, peerId, offered])
      (by simp [Record.ofFields, held, offered])
      (by simp [Record.ofFields, held, recordId, offered]) (by simp [Record.ofFields, held]))
    (by simp [Record.ofFields, held, retryTerminalFields, isNullish])]
  simpa [Record.ofFields, held] using known

variable {resolution : String}

theorem isRetryResolution_text
    : isRetryResolution (some (.str resolution)) = true
      ↔ ∃ known : RetryResolution, resolution = known.text := by
  have all : ∀ known : RetryResolution, known ∈ RetryResolution.all := by
    intro known
    cases known <;> decide
  simp only [isRetryResolution, List.any_eq_true, decide_eq_true_eq, Option.some.injEq,
    Value.str.injEq]
  constructor
  · rintro ⟨known, -, same⟩
    exact ⟨known, same⟩
  · rintro ⟨known, same⟩
    exact ⟨known, all known, same⟩

theorem outcomeFits_terminal (state : row.get "state" = some terminal)
    (resolved : row.get "resolution" = some (.str resolution))
    (bound : row.get "bound" = some .null)
    : outcomeFits row = true
      ↔ ∃ known : RetryResolution, resolution = known.text ∧ known ≠ .retryExhausted := by
  have notPending : row.get "state" ≠ some pending := by
    rw [state]
    decide
  have unbounded : isRetryBound (some .null) = false := rfl
  rw [outcomeFits, if_neg notPending, resolved, bound, Bool.and_eq_true, isRetryResolution_text]
  by_cases exhausted : resolution = RetryResolution.retryExhausted.text
  · rw [if_pos (by rw [exhausted]), unbounded]
    simp only [Bool.false_eq_true, and_false, false_iff, not_exists, not_and, not_not]
    intro known same
    rw [exhausted] at same
    cases known with
    | retryExhausted => rfl
    | _ => exact absurd same (by decide)
  · rw [if_neg (by simpa using exhausted)]
    simp only [isNullish, and_true]
    constructor
    · rintro ⟨known, rfl⟩
      exact ⟨known, rfl, fun same => exhausted (by rw [same])⟩
    · rintro ⟨known, rfl, -⟩
      exact ⟨known, rfl⟩

theorem get_terminalRetryRow {nowIso field : String} (declared : field ∈ retryRowFields)
    (kept : field ∉ ["state", "resolution", "bound", "completedAt", "updatedAt"])
    : (terminalRetryRow row resolution nowIso).get field = row.get field := by
  simp only [List.mem_cons, List.not_mem_nil, or_false, not_or] at kept
  simp only [terminalRetryRow, Record.get_set, Record.get_filter, kept, if_false]
  cases row.get field with
  | none => rfl
  | some value => simp [Option.filter, declared]

theorem terminalRetryRow_passes (well : WellFormedPending row) (resolution nowIso : String)
    : PassesChecks (terminalRetryRow row resolution nowIso)
      ↔ ∃ known : RetryResolution, resolution = known.text ∧ known ≠ .retryExhausted := by
  obtain ⟨entry, named, peerId, table, recordId, id⟩ := well.entry
  obtain ⟨-, reason, -⟩ := (retryRowMalformedness_pending well.2).mp well.1
  let out := terminalRetryRow row resolution nowIso
  have state : out.get "state" = some terminal := by simp [out, terminalRetryRow]
  have resolved : out.get "resolution" = some (.str resolution) := by
    simp [out, terminalRetryRow]
  have bound : out.get "bound" = some .null := by simp [out, terminalRetryRow]
  have own : ownKey out = true := by
    refine ownKey_of_entry named ?_ ?_ ?_ ?_
    · rw [get_terminalRetryRow (by decide) (by decide), peerId]
    · rw [get_terminalRetryRow (by decide) (by decide), table]
    · rw [get_terminalRetryRow (by decide) (by decide), recordId]
    · rw [get_terminalRetryRow (by decide) (by decide), id]
  have known : isPendingReason (out.get "lastReason") = true := by
    rw [get_terminalRetryRow (by decide) (by decide)]
    exact reason
  have sender : retryRowMalformedness out = none ↔ outcomeFits out = true := by
    rw [retryRowMalformedness_terminal state, retryRowProblemShared_eq_none]
    exact ⟨fun passes => passes.2.2.2, fun fits => ⟨own, Or.inr state, Or.inr known, fits⟩⟩
  rw [← outcomeFits_terminal state resolved bound, ← sender]
  exact ⟨fun passes => passes.1, fun passes => ⟨passes, receiver_accepts passes⟩⟩

theorem state_of_due {dateParse : Value → Option Int} {rows : List Record} {nowMs : Int}
    {table : String} (due : row ∈ dueRetryRows dateParse rows nowMs table)
    : row.get "state" = some pending := by
  have offered := (List.mem_filter.mp due).2
  rw [Bool.and_eq_true, Option.isNone_iff_eq_none] at offered
  by_contra other
  simp [retryOfferProblem, other] at offered

-- The whole bookkeeping

theorem RetryEntry.named_of_key {entry : RetryEntry} {id : String} (made : entry.key = .ok id)
    : entry.Named ∧ id = entry.keyText := by
  obtain ⟨other, named, peerId, table, recordId, rfl⟩ := retryEntryKey_eq_ok.mp made
  have same : entry = other := by
    obtain ⟨peer, kind, record⟩ := entry
    obtain ⟨peer', kind', record'⟩ := other
    simp only [Option.some.injEq, Value.str.injEq] at peerId table recordId
    rw [peerId, table, recordId]
  rw [same]
  exact ⟨named, rfl⟩

/-- The rows of the sender's bookkeeping pass the checks of both sides: a refusal's with a
reason a pending row may hold, whatever row there was before; every attempt's; and every
termination's with a known resolution other than the reserved `retry_exhausted`. A terminal
row is never due, and a key is read back as its entry, so no two entries share one.
-/
theorem retry_rows_closed (dateParse : Value → Option Int)
    : (∀ input, (∃ row, retryRowForRefusal input = .ok row)
        ↔ input.peerId ≠ "" ∧ input.recordId ≠ "")
      ∧ (∀ input row, retryRowForRefusal input = .ok row
        → (PassesChecks row ↔ input.reason ∈ memoryPendingReasons))
      ∧ (∀ row nowIso, WellFormedPending row
        → ∃ out, retryRowForAttempt row nowIso = .ok out ∧ PassesChecks out)
      ∧ (∀ row resolution nowIso, WellFormedPending row
        → (PassesChecks (terminalRetryRow row resolution nowIso)
          ↔ ∃ known : RetryResolution, resolution = known.text ∧ known ≠ .retryExhausted))
      ∧ (∀ rows nowMs table (row : Record), row.get "state" = some terminal
        → row ∉ dueRetryRows dateParse rows nowMs table)
      ∧ (∀ entry : RetryEntry, entry.Named
        → ∃ id, entry.key = .ok id ∧ parseRetryEntryKey id = some entry)
      ∧ ∀ (first second : RetryEntry) id, first.key = .ok id → second.key = .ok id
        → first = second := by
  refine ⟨retryRowForRefusal_writes, fun _ _ => retryRowForRefusal_passes, fun _ nowIso well =>
    retryRowForAttempt_passes well nowIso, fun _ resolution nowIso well =>
    terminalRetryRow_passes well resolution nowIso, ?_, ?_, ?_⟩
  · intro rows nowMs table row state due
    rw [state_of_due due] at state
    exact absurd state (by decide)
  · intro entry named
    exact ⟨entry.keyText, RetryEntry.key_of_named named, parseRetryEntryKey_keyText named⟩
  · intro first second id firstKey secondKey
    obtain ⟨named, rfl⟩ := RetryEntry.named_of_key firstKey
    obtain ⟨other, same⟩ := RetryEntry.named_of_key secondKey
    exact RetryEntry.keyText_inj named other same

def firstRefusal (reason : String) : RefusalRowInput where
  peerId := "hub"
  recordId := "m-1"
  reason
  nowIso := "2025-09-01T00:00:00.000Z"
  existing := none
  attemptReserved := false

/-- A pending row that is terminated as exhausted fails the checks, for want of a bound; and
so does the row of a refusal for a final reason.
-/
theorem rows_that_fail_their_checks
    : (∃ row, retryRowForRefusal (firstRefusal "merge_error") = .ok row
        ∧ WellFormedPending row
        ∧ ¬ PassesChecks
            (terminalRetryRow row RetryResolution.retryExhausted.text "2025-09-02T00:00:00.000Z"))
      ∧ ∃ row, retryRowForRefusal (firstRefusal "invalid_signature") = .ok row
        ∧ ¬ PassesChecks row := by
  obtain ⟨row, written⟩ :=
    (retryRowForRefusal_writes (firstRefusal "merge_error")).mpr (by decide)
  obtain ⟨final, finalWritten⟩ :=
    (retryRowForRefusal_writes (firstRefusal "invalid_signature")).mpr (by decide)
  have passes : PassesChecks row := (retryRowForRefusal_passes written).mpr (by decide)
  have well : WellFormedPending row := ⟨passes.1, retryRowForRefusal_pending written⟩
  refine ⟨⟨row, written, well, ?_⟩, final, finalWritten, ?_⟩
  · rw [terminalRetryRow_passes well]
    rintro ⟨known, same, apart⟩
    cases known with
    | retryExhausted => exact apart rfl
    | _ => exact absurd same (by decide)
  · rw [retryRowForRefusal_passes finalWritten]
    decide

end Flair.Federation
