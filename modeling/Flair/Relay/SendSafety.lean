import Flair.Relay.Decisions

/-! What relay sends keep under every interleaving: the invariants of the stored messages,
their order and their owners, and no cycle of calls that wait for each other's locks.
-/

namespace Flair.Relay

open Dynamic KeyLedger Transition

-- Sound tables

structure TableSound (caps : Caps) (table : MessageTable) : Prop where
  distinct : ∀ id other row stored, table.lookup id = some row
    → table.lookup other = some stored → id ≠ other → row.get "from" = stored.get "from"
    → row.get "threadId" = stored.get "threadId" → row.get "seq" ≠ stored.get "seq"
  single : ∀ id other row stored, table.lookup id = some row
    → table.lookup other = some stored → isDuplicate row stored = true → id = other
  inbox : ∀ recipient : String, countRows (inInbox (some (.str recipient))) table ≤ caps.inbox
  sender : ∀ recipient sender : String,
    countRows (fromSender (some (.str recipient)) (some (.str sender))) table ≤ caps.perSender

theorem get_deliveredRow (content : Record) (now : String) {field : String}
    (plain : field ∉ ["kind", "state", "consumedAt", "failureReason", "deliveredAt"])
    : (deliveredRow content now).get field = content.get field := by
  simp only [List.mem_cons, List.not_mem_nil, or_false, not_or] at plain
  simp [deliveredRow, plain]

variable {table : MessageTable} {id : String} {row : Record}

theorem countRows_insert {kind : Record → Bool} (fresh : table.lookup id = none)
    : countRows kind (table.insert id row)
      = countRows kind table + if kind row then 1 else 0 := by
  rw [countRows, MessageTable.rows_insert fresh, List.filter_cons]
  split <;> simp [countRows]

theorem countRows_insert_le {kind : Record → Bool} {cap : Nat} (fresh : table.lookup id = none)
    (within : countRows kind table ≤ cap) (room : kind row = true → countRows kind table < cap)
    : countRows kind (table.insert id row) ≤ cap := by
  rw [countRows_insert fresh]
  split
  · rename_i counted
    have below := room counted
    omega
  · exact within

variable {caps : Caps}

theorem TableSound.insert {content : MessageEnvelope} (h : TableSound caps table)
    (found : Acceptable caps content table row)
    : TableSound caps (table.insert (content.text "id") row) := by
  obtain ⟨fresh, ⟨now, rfl⟩, new, ⟨seq, numbered, ahead⟩, inbox, sender⟩ := found
  have senderKept := get_deliveredRow content.fields now (by decide : "from" ∉ _)
  have recipientKept := get_deliveredRow content.fields now (by decide : "to" ∉ _)
  have threadKept := get_deliveredRow content.fields now (by decide : "threadId" ∉ _)
  have seqKept := get_deliveredRow content.fields now (by decide : "seq" ∉ _)
  have hashKept := get_deliveredRow content.fields now (by decide : "contentHash" ∉ _)
  have later (stored : Record) (member : stored ∈ table.rows)
      (sender : stored.get "from" = content.fields.get "from")
      (thread : stored.get "threadId" = content.fields.get "threadId")
      : stored.get "seq" ≠ content.fields.get "seq" := by
    intro same
    rw [numbered] at same
    exact lt_irrefl seq (ahead stored member (by simp [inThread, sender, thread]) seq same)
  refine ⟨?_, ?_, ?_, ?_⟩
  · intro id other first second firstStored secondStored different sender thread
    rcases MessageTable.lookup_insert_cases firstStored with ⟨rfl, rfl⟩ | ⟨-, firstOld⟩
    · rcases MessageTable.lookup_insert_cases secondStored with ⟨rfl, -⟩ | ⟨-, secondOld⟩
      · exact absurd rfl different
      rw [seqKept]
      rw [senderKept] at sender
      rw [threadKept] at thread
      exact (later second (MessageTable.mem_rows.mpr ⟨other, secondOld⟩) sender.symm
        thread.symm).symm
    · rcases MessageTable.lookup_insert_cases secondStored with ⟨rfl, rfl⟩ | ⟨-, secondOld⟩
      · rw [seqKept]
        rw [senderKept] at sender
        rw [threadKept] at thread
        exact later first (MessageTable.mem_rows.mpr ⟨id, firstOld⟩) sender thread
      · exact h.distinct id other first second firstOld secondOld different sender thread
  · intro id other first second firstStored secondStored duplicate
    rcases MessageTable.lookup_insert_cases firstStored with ⟨rfl, rfl⟩ | ⟨-, firstOld⟩
    · rcases MessageTable.lookup_insert_cases secondStored with ⟨rfl, -⟩ | ⟨-, secondOld⟩
      · rfl
      have none_found := new second (MessageTable.mem_rows.mpr ⟨other, secondOld⟩)
      simp only [isDuplicate, senderKept, recipientKept, hashKept] at duplicate none_found
      rw [duplicate] at none_found
      cases none_found
    · rcases MessageTable.lookup_insert_cases secondStored with ⟨rfl, rfl⟩ | ⟨-, secondOld⟩
      · have none_found := new first (MessageTable.mem_rows.mpr ⟨id, firstOld⟩)
        simp only [isDuplicate, senderKept, recipientKept, hashKept, decide_eq_true_eq,
          decide_eq_false_iff_not] at duplicate none_found
        obtain ⟨sender, recipient, hash⟩ := duplicate
        exact absurd ⟨sender.symm, recipient.symm, hash.symm⟩ none_found
      · exact h.single id other first second firstOld secondOld duplicate
  · intro recipient
    refine countRows_insert_le fresh (h.inbox recipient) ?_
    intro counted
    have same : content.fields.get "to" = some (.str recipient) := by
      simp only [inInbox, recipientKept, Bool.and_eq_true, decide_eq_true_eq] at counted
      exact counted.1
    rw [← same]
    exact inbox
  · intro recipient sender'
    refine countRows_insert_le fresh (h.sender recipient sender') ?_
    intro counted
    simp only [fromSender, inInbox, recipientKept, senderKept, Bool.and_eq_true,
      decide_eq_true_eq] at counted
    rw [← counted.1.1, ← counted.2]
    exact sender

-- Calls and their keys

def SendStage.keys : SendStage → List SendKey
  | .locking _ taken _ _ | .releasing taken _ => taken
  | .opened content | .deciding content _ | .storing content _ => allTaken content
  | .idle | .verifying _ | .answered _ => []

def Sendable (content : MessageEnvelope) : Prop :=
  ∀ field ∈ requiredSendFields, content.fields.get field = some (.str (content.text field))

/-- What a call has established at a stage. From its snapshot on it decides as it would on
the current table, since no other call may add a row that its decision looks at.
-/
def StageSound (caps : Caps) (table : MessageTable) : SendStage → Prop
  | .idle | .answered _ => True
  | .verifying content | .opened content => Sendable content
  | .locking content taken left _ =>
    Sendable content ∧ sendKeys content = taken.reverse ++ left
  | .deciding content snapshot =>
    Sendable content ∧ ∀ now searchable,
      decideSend caps content snapshot now searchable
        = decideSend caps content table now searchable
  | .storing content row =>
    Sendable content ∧ ∃ now searchable,
      decideSend caps content table now searchable = .store row
  | .releasing taken _ => taken.Nodup

structure SendInv (caps : Caps) (state : SendState) : Prop where
  table : TableSound caps state.table
  stages : ∀ caller, StageSound caps state.table (state.stage caller)
  held : ∀ caller, state.ledger.HoldsExactly caller (state.stage caller).keys

theorem sendKeys_nodup (content : MessageEnvelope) : (sendKeys content).Nodup := by
  simp [sendKeys]

theorem allTaken_nodup (content : MessageEnvelope) : (allTaken content).Nodup :=
  List.nodup_reverse.mpr (sendKeys_nodup content)

theorem releaseStage_keys (taken : List SendKey) (answer : SendAnswer)
    : (releaseStage taken answer).keys = taken := by
  cases taken <;> rfl

theorem releaseStage_sound {taken : List SendKey} (distinct : taken.Nodup) (answer : SendAnswer)
    : StageSound caps table (releaseStage taken answer) := by
  cases taken with
  | nil => trivial
  | cons key rest => exact distinct

variable {state : SendState} {stage : SendStage}

theorem SendInv.relock {caller : Nat} {ledger : Ledger SendKey Nat} (h : SendInv caps state)
    (sound : StageSound caps state.table stage) (own : ledger.HoldsExactly caller stage.keys)
    (others : ∀ other, other ≠ caller → ledger.HoldsExactly other (state.stage other).keys)
    : SendInv caps ({ state with ledger }.goto caller stage) := by
  refine ⟨h.table, ?_, ?_⟩
  · exact (Function.forall_update_iff _ fun _ stage => StageSound caps state.table stage).mpr
      ⟨sound, fun other _ => h.stages other⟩
  · exact (Function.forall_update_iff _
      fun other (stage : SendStage) => ledger.HoldsExactly other stage.keys).mpr ⟨own, others⟩

theorem SendInv.goto {caller : Nat} (h : SendInv caps state)
    (sound : StageSound caps state.table stage) (keys : stage.keys = (state.stage caller).keys)
    : SendInv caps (state.goto caller stage) := by
  exact h.relock sound (keys ▸ h.held caller) fun other _ => h.held other

theorem apart_of_disjoint {content other : MessageEnvelope} (sendable : Sendable content)
    (otherSendable : Sendable other)
    (disjoint : ∀ key ∈ sendKeys content, key ∉ sendKeys other) (now : String)
    : Apart other (deliveredRow content.fields now)
      ∧ content.text "id" ≠ other.text "id" := by
  refine ⟨⟨?_, ?_⟩, ?_⟩
  · intro same
    rw [get_deliveredRow content.fields now (by decide), sendable "to" (by decide),
      otherSendable "to" (by decide)] at same
    have texts : content.text "to" = other.text "to" := by simpa using same
    exact disjoint (.recipient (content.text "to")) (by simp [sendKeys])
      (by simp [sendKeys, texts])
  · intro same
    rw [get_deliveredRow content.fields now (by decide), sendable "from" (by decide),
      otherSendable "from" (by decide)] at same
    have texts : content.text "from" = other.text "from" := by simpa using same
    exact disjoint (.sender (content.text "from")) (by simp [sendKeys])
      (by simp [sendKeys, texts])
  · intro same
    exact disjoint (.id (content.text "id")) (by simp [sendKeys]) (by simp [sendKeys, same])

theorem StageSound.insert (h : StageSound caps table stage) (fresh : table.lookup id = none)
    (apart : ∀ content, Sendable content → stage.keys = allTaken content
      → Apart content row ∧ id ≠ content.text "id")
    : StageSound caps (table.insert id row) stage := by
  cases stage with
  | idle | answered | verifying | opened | locking | releasing => exact h
  | deciding content snapshot =>
    obtain ⟨sendable, same⟩ := h
    refine ⟨sendable, ?_⟩
    intro now searchable
    obtain ⟨other, different⟩ := apart content sendable rfl
    rw [decideSend_insert fresh different other, same now searchable]
  | storing content staged =>
    obtain ⟨sendable, now, searchable, decided⟩ := h
    obtain ⟨other, different⟩ := apart content sendable rfl
    refine ⟨sendable, now, searchable, ?_⟩
    rw [decideSend_insert fresh different other, decided]

-- One step

variable {next : SendState}

theorem SendInv.take {caller : Nat} (h : SendInv caps state)
    (taken : takeKey state caller = some next)
    : SendInv caps next := by
  have sound := h.stages caller
  have held := h.held caller
  unfold takeKey at taken
  split at taken
  · rename_i content before key left attempt at_locking
    rw [at_locking] at sound held
    obtain ⟨sendable, keys⟩ := sound
    split at taken
    · rename_i ledger locked
      cases taken
      have grown : sendKeys content = (key :: before).reverse ++ left := by simp [keys]
      refine h.relock ?_ ?_ (fun other different => (h.held other).take_other locked different)
      · cases left with
        | nil => exact sendable
        | cons later rest => exact ⟨sendable, grown⟩
      · have all := held.take locked
        cases left with
        | nil =>
          have same : allTaken content = key :: before := by
            rw [allTaken, grown, List.append_nil, List.reverse_reverse]
          simpa [lockedStage, SendStage.keys, same] using all
        | cons later rest => exact all
    · cases taken
      have distinct : before.Nodup := by
        have whole := sendKeys_nodup content
        rw [keys] at whole
        exact List.nodup_reverse.mp (List.nodup_append.mp whole).1
      split
      · exact h.goto ⟨sendable, keys⟩ (by rw [at_locking]; rfl)
      · exact h.goto (releaseStage_sound distinct sendBusy)
          (by rw [at_locking, releaseStage_keys]; rfl)
  · cases taken

variable {signing : Signing}

theorem SendInv.release {caller : Nat} (h : SendInv caps state)
    (taken : sendStep signing caps state (.release caller) = some next)
    : SendInv caps next := by
  have sound := h.stages caller
  have held := h.held caller
  simp only [sendStep] at taken
  split at taken
  · rename_i key rest answer at_releasing
    rw [at_releasing] at sound held
    obtain ⟨fresh, distinct⟩ := List.nodup_cons.mp sound
    have own : state.ledger.holder key = some caller := (held key).mpr List.mem_cons_self
    cases taken
    refine h.relock (releaseStage_sound distinct answer) ?_
      (fun other different => (h.held other).release_other own different)
    rw [releaseStage_keys]
    exact held.release fresh
  · cases taken

theorem SendInv.commit {caller : Nat} {landed resolves : Bool} (h : SendInv caps state)
    (taken : sendStep signing caps state (.commit caller landed resolves) = some next)
    : SendInv caps next := by
  have sound := h.stages caller
  have held := h.held caller
  simp only [sendStep] at taken
  split at taken
  · rename_i content row at_storing
    rw [at_storing] at sound held
    obtain ⟨sendable, now, searchable, decided⟩ := sound
    cases taken
    have keys : (SendStage.releasing (allTaken content)
        (if resolves then acceptedView row else .threw)).keys = (state.stage caller).keys := by
      rw [at_storing]
      rfl
    cases landed with
    | false => exact h.goto (allTaken_nodup content) keys
    | true =>
      have found := acceptable_of_store decided
      refine ⟨h.table.insert found, ?_, ?_⟩
      · intro other
        simp only [SendState.goto, Function.update_apply, ↓reduceIte]
        split
        · exact allTaken_nodup content
        rename_i different
        obtain ⟨deliveredAt, delivers⟩ := found.delivers
        refine (h.stages other).insert found.fresh ?_
        intro theirs theirSendable theirKeys
        rw [delivers]
        refine apart_of_disjoint sendable theirSendable ?_ deliveredAt
        intro key mine yours
        have free := held.disjoint (h.held other) (Ne.symm different)
          (List.mem_reverse.mpr mine)
        rw [theirKeys] at free
        exact free (List.mem_reverse.mpr yours)
      · intro other
        simp only [SendState.goto, Function.update_apply, ↓reduceIte]
        split
        · rename_i same
          rw [same]
          exact held
        · exact h.held other
  · cases taken

theorem sendable_of_accepted {auth : AgentAuthVerdict} {content : MessageEnvelope}
    (h : sendRefusal auth content.fields = none)
    : Sendable content := by
  have present : requiredSendFields.find? (missing content.fields) = none := by
    unfold sendRefusal at h
    split at h
    · cases h
    · split at h
      · cases h
      · assumption
  intro field required
  have text : field ∈ envelopeTexts := by
    simp only [requiredSendFields, List.mem_cons, List.not_mem_nil, or_false] at required
    rcases required with rfl | rfl | rfl | rfl | rfl | rfl | rfl | rfl <;> decide
  have given := List.find?_eq_none.mp present field required
  cases found : content.fields.get field with
  | none => simp [missing, found, isNullish] at given
  | some value =>
    have typed := content.texts field text
    rw [found] at typed
    cases value with
    | null => simp [missing, found, isNullish] at given
    | str written => simp [MessageEnvelope.text, found, asString]
    | bool _ | num _ | arr _ | obj _ => simp [isText] at typed

theorem SendInv.step {signing : Signing} {caps : Caps} {state next : SendState}
    {label : SendLabel} (h : SendInv caps state)
    (taken : sendStep signing caps state label = some next)
    : SendInv caps next := by
  cases label with
  | take caller => exact h.take taken
  | release caller => exact h.release taken
  | commit caller landed resolves => exact h.commit taken
  | post caller auth content =>
    simp only [sendStep] at taken
    split at taken
    · rename_i at_idle
      cases taken
      split
      · exact h.goto trivial (by rw [at_idle]; rfl)
      · rename_i accepted
        exact h.goto (sendable_of_accepted accepted) (by rw [at_idle]; rfl)
    · cases taken
  | verify caller org publicKey =>
    have sound := h.stages caller
    simp only [sendStep] at taken
    split at taken
    · rename_i content at_verifying
      rw [at_verifying] at sound
      cases taken
      split
      · exact h.goto trivial (by rw [at_verifying]; rfl)
      · exact h.goto ⟨sound, rfl⟩ (by rw [at_verifying]; rfl)
    · cases taken
  | lockMissing caller =>
    simp only [sendStep] at taken
    split at taken
    · rename_i at_locking
      cases taken
      exact h.goto trivial (by rw [at_locking]; rfl)
    · cases taken
  | readId caller readable =>
    have sound := h.stages caller
    simp only [sendStep] at taken
    split at taken
    · rename_i content at_opened
      rw [at_opened] at sound
      cases taken
      split
      · exact h.goto ⟨sound, fun _ _ => rfl⟩ (by rw [at_opened]; rfl)
      · exact h.goto (allTaken_nodup content) (by rw [at_opened]; rfl)
    · cases taken
  | decide caller now searchable =>
    have sound := h.stages caller
    simp only [sendStep] at taken
    split at taken
    · rename_i content snapshot at_deciding
      rw [at_deciding] at sound
      obtain ⟨sendable, same⟩ := sound
      cases taken
      cases decided : decideSend caps content snapshot now searchable with
      | answer answer => exact h.goto (allTaken_nodup content) (by rw [at_deciding]; rfl)
      | store row =>
        rw [same] at decided
        exact h.goto ⟨sendable, now, searchable, decided⟩ (by rw [at_deciding]; rfl)
    · cases taken

-- Every run

/-- No call is under way and no key is held; the table is what earlier sends may leave. -/
def relaySends (signing : Signing) (caps : Caps) : System SendState SendLabel where
  initial state :=
    TableSound caps state.table ∧ state.ledger = Ledger.fresh
      ∧ ∀ caller, state.stage caller = .idle
  step := sendStep signing caps

def SendLabel.caller : SendLabel → Nat
  | .post caller _ _ | .verify caller _ _ | .lockMissing caller | .take caller
  | .readId caller _ | .decide caller _ _ | .commit caller _ _ | .release caller => caller

variable {label : SendLabel}

theorem sendStep_table (taken : sendStep signing caps state label = some next)
    : next.table = state.table
      ∨ ∃ content row, state.stage label.caller = .storing content row
        ∧ next.table = state.table.insert (content.text "id") row := by
  cases label with
  | commit caller landed resolves =>
    simp only [sendStep] at taken
    split at taken
    · rename_i content row at_storing
      cases taken
      cases landed with
      | false => exact Or.inl rfl
      | true => exact Or.inr ⟨content, row, at_storing, rfl⟩
    · cases taken
  | take caller =>
    simp only [sendStep, takeKey] at taken
    split at taken
    · split at taken <;> cases taken <;> exact Or.inl rfl
    · cases taken
  | post _ _ _ | verify _ _ _ | lockMissing _ | readId _ _ | decide _ _ _ | release _ =>
    simp only [sendStep] at taken
    split at taken
    · cases taken
      exact Or.inl rfl
    · cases taken

theorem SendInv.acceptable {caller : Nat} {content : MessageEnvelope} (h : SendInv caps state)
    (at_storing : state.stage caller = .storing content row)
    : Acceptable caps content state.table row := by
  have sound := h.stages caller
  rw [at_storing] at sound
  obtain ⟨-, now, searchable, decided⟩ := sound
  exact acceptable_of_store decided

theorem SendInv.persists (h : SendInv caps state)
    (taken : sendStep signing caps state label = some next)
    (stored : state.table.lookup id = some row)
    : next.table.lookup id = some row := by
  rcases sendStep_table taken with same | ⟨content, added, at_storing, grown⟩
  · rw [same]
    exact stored
  · rw [grown]
    exact MessageTable.lookup_insert_of_stored (h.acceptable at_storing).fresh stored

def SendStage.content : SendStage → Option MessageEnvelope
  | .verifying content | .locking content _ _ _ | .opened content | .deciding content _
  | .storing content _ => some content
  | .idle | .releasing _ _ | .answered _ => none

/-- The message is stored already: its id, or its sender, recipient and content hash. -/
def Accepted (content : MessageEnvelope) (table : MessageTable) : Prop :=
  (∃ row, table.lookup (content.text "id") = some row)
    ∨ ∃ id row, table.lookup id = some row ∧ isDuplicate content.fields row = true

/-- The two rows are of one sender's thread, and the second is strictly ahead. -/
def FollowsInThread (earlier later : Record) : Prop :=
  earlier.get "from" = later.get "from" → earlier.get "threadId" = later.get "threadId"
    → ∀ seq, earlier.get "seq" = some (.num seq)
      → ∃ next, later.get "seq" = some (.num next) ∧ seq < next

variable {later : SendState}

theorem SendInv.reaches (h : SendInv caps state)
    (run : (relaySends signing caps).Reaches state later)
    : SendInv caps later :=
  run.preserves (fun _ _ _ inv _ taken => inv.step taken) h

theorem SendInv.stays (h : SendInv caps state) (run : (relaySends signing caps).Reaches state later)
    (stored : state.table.lookup id = some row)
    : later.table.lookup id = some row := by
  let kept (current : SendState) := SendInv caps current ∧ current.table.lookup id = some row
  have step (before : SendState) (label : SendLabel) (next : SendState) (held : kept before)
      (_ : True) (taken : (relaySends signing caps).step before label = some next)
      : kept next :=
    ⟨held.1.step taken, held.1.persists taken held.2⟩
  have final : kept later := run.preserves step ⟨h, stored⟩
  exact final.2

theorem Acceptable.follows {content : MessageEnvelope} {earlier : Record}
    (h : Acceptable caps content table row) (stored : table.lookup id = some earlier)
    : FollowsInThread earlier row := by
  obtain ⟨-, ⟨now, rfl⟩, -, ⟨number, numbered, ahead⟩, -, -⟩ := h
  intro sender thread seq given
  rw [get_deliveredRow content.fields now (by decide)] at sender thread
  refine ⟨number, ?_, ?_⟩
  · rw [get_deliveredRow content.fields now (by decide), numbered]
  · refine ahead earlier (MessageTable.mem_rows.mpr ⟨id, stored⟩) ?_ seq given
    simp [inThread, sender, thread]

theorem SendInv.ahead (h : SendInv caps state) (run : (relaySends signing caps).Reaches state later)
    {other : String} {earlier : Record} (first : state.table.lookup other = some earlier)
    (stored : later.table.lookup id = some row) (new : state.table.lookup id = none)
    : FollowsInThread earlier row := by
  let kept (current : SendState) :=
    SendInv caps current ∧ current.table.lookup other = some earlier
      ∧ ∀ id row, current.table.lookup id = some row → state.table.lookup id = none
        → FollowsInThread earlier row
  have step (before : SendState) (label : SendLabel) (next : SendState) (held : kept before)
      (_ : True) (taken : (relaySends signing caps).step before label = some next)
      : kept next := by
    obtain ⟨inv, known, follow⟩ := held
    refine ⟨inv.step taken, inv.persists taken known, ?_⟩
    intro id row found unknown
    rcases sendStep_table taken with same | ⟨content, added, at_storing, grown⟩
    · rw [same] at found
      exact follow id row found unknown
    rw [grown] at found
    rcases MessageTable.lookup_insert_cases found with ⟨-, rfl⟩ | ⟨-, old⟩
    · exact (inv.acceptable at_storing).follows known
    · exact follow id row old unknown
  have start : kept state := ⟨h, first, fun id row found unknown => by
    rw [unknown] at found
    cases found⟩
  have final : kept later := run.preserves step start
  exact final.2.2 id row stored new

theorem SendInv.retry {content : MessageEnvelope} (h : SendInv caps state)
    (accepted : Accepted content state.table)
    (sending : (state.stage label.caller).content = some content)
    (taken : (relaySends signing caps).step state label = some next)
    : next.table = state.table := by
  rcases sendStep_table taken with same | ⟨stored, row, at_storing, -⟩
  · exact same
  have found := h.acceptable at_storing
  rw [at_storing] at sending
  cases sending
  rcases accepted with ⟨earlier, known⟩ | ⟨id, earlier, known, duplicate⟩
  · rw [found.fresh] at known
    cases known
  · have different := found.new earlier (MessageTable.mem_rows.mpr ⟨id, known⟩)
    rw [duplicate] at different
    cases different

-- No cycle of waiting calls

def SendKey.rank : SendKey → Nat
  | .id _ => 0
  | .recipient _ => 1
  | .sender _ => 2

theorem sendKeys_ordered (content : MessageEnvelope)
    : (sendKeys content).Pairwise fun left right => left.rank < right.rank := by
  simp [sendKeys, SendKey.rank]

theorem SendInv.rank_lt {caller : Nat} {content : MessageEnvelope} {taken left : List SendKey}
    {key held : SendKey} {attempt : Nat} (h : SendInv caps state)
    (at_locking : state.stage caller = .locking content taken (key :: left) attempt)
    (holds : state.ledger.holder held = some caller)
    : held.rank < key.rank := by
  have sound := h.stages caller
  have mine := (h.held caller held).mp holds
  rw [at_locking] at sound mine
  have ordered := sendKeys_ordered content
  rw [sound.2, List.pairwise_append] at ordered
  exact ordered.2.2 held (List.mem_reverse.mpr mine) key List.mem_cons_self

def SendState.answerOf (state : SendState) (caller : Nat) : Option SendAnswer :=
  match state.stage caller with
  | .answered answer => some answer
  | _ => none

end Flair.Relay
