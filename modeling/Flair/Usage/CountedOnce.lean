import Mathlib.Algebra.Order.Ring.Rat
import Flair.Usage.UsageRecording
import Flair.WriteBack.Confirmation
import Flair.WriteBack.ConflictOutcome
import Flair.WriteBack.Plans

/-! Usage is counted once for an agent and a memory, however recordings, crashes and other
writers interleave, and a memory an agent cannot read is to its recordings one that is absent.
-/

namespace Flair.Usage

open Dynamic KeyLedger Transition

-- Ledger rows

theorem split_first {Char : Type} {separator : Char} {before other rest more : List Char}
    (h : before ++ separator :: rest = other ++ separator :: more)
    (first : separator ∉ before) (otherFirst : separator ∉ other)
    : before = other ∧ rest = more := by
  rcases List.append_eq_append_iff.mp h with ⟨between, rfl, tails⟩ | ⟨between, rfl, tails⟩
  · cases between with
    | nil => exact ⟨by simp, (List.cons.inj tails).2⟩
    | cons c others =>
      obtain ⟨rfl, -⟩ := List.cons.inj tails
      exact absurd (by simp) otherFirst
  · cases between with
    | nil => exact ⟨by simp, (List.cons.inj tails).2.symm⟩
    | cons c others =>
      obtain ⟨rfl, -⟩ := List.cons.inj tails
      exact absurd (by simp) first

variable {agent other : AgentId}

theorem AgentId.ext_text (h : agent.text = other.text)
    : agent = other := by
  obtain ⟨text, valid⟩ := agent
  obtain ⟨text', valid'⟩ := other
  subst h
  rfl

theorem AgentId.no_colon (agent : AgentId) : ':' ∉ agent.text.toList := by
  intro member
  have valid := agent.valid
  simp only [Federation.isValidAgentId, Bool.and_eq_true, List.all_eq_true] at valid
  exact absurd (valid.2 ':' member) (by decide)

variable {memory another : String}

theorem ledgerId_inj (h : ledgerId agent memory = ledgerId other another)
    : agent = other ∧ memory = another := by
  have chars := congrArg String.toList h
  simp only [ledgerId, String.toList_append, List.append_assoc] at chars
  obtain ⟨agents, memories⟩ := split_first chars agent.no_colon other.no_colon
  exact ⟨AgentId.ext_text (String.toList_inj.mp agents), String.toList_inj.mp memories⟩

def Credited (ledger : InsertionMap String Record) (agent : AgentId) (memory : String) : Prop :=
  ∃ row, ledger.get (ledgerId agent memory) = some row
    ∧ row.get "memoryId" = some (.str memory)

theorem get_ledgerRecord (agent : AgentId) (memory : String) (attribution : Option String)
    (now : String)
    : (ledgerRecord agent memory attribution now).get "memoryId" = some (.str memory) := by
  unfold ledgerRecord
  split <;> simp [Record.ofFields]

theorem Credited.set {ledger : InsertionMap String Record} (h : Credited ledger agent memory)
    (other : AgentId) (another : String) (attribution : Option String) (now : String)
    : Credited (ledger.set (ledgerId other another)
        (ledgerRecord other another attribution now)) agent memory := by
  obtain ⟨row, stored, named⟩ := h
  unfold Credited
  rw [InsertionMap.get_set]
  split
  · rename_i same
    obtain ⟨rfl, rfl⟩ := ledgerId_inj same
    exact ⟨_, rfl, get_ledgerRecord agent memory attribution now⟩
  · exact ⟨row, stored, named⟩

theorem credited_set (ledger : InsertionMap String Record) (agent : AgentId) (memory : String)
    (attribution : Option String) (now : String)
    : Credited (ledger.set (ledgerId agent memory)
        (ledgerRecord agent memory attribution now)) agent memory :=
  ⟨_, by rw [InsertionMap.get_set, if_pos rfl], get_ledgerRecord agent memory attribution now⟩

theorem uncredited_set {ledger : InsertionMap String Record}
    (h : ledger.get (ledgerId agent memory) = none) (apart : memory ≠ another) (row : Record)
    : (ledger.set (ledgerId other another) row).get (ledgerId agent memory) = none := by
  rw [InsertionMap.get_set]
  split
  · rename_i same
    exact absurd (ledgerId_inj same).2 apart
  · exact h

-- The count's plan

variable {canRead : Record → Bool}

theorem countPlan_readable {row : Record} (readable : canRead row = true)
    : countPlan canRead (some row)
      = .update (.ofFields [("usageCount", .num (usageCount row + 1))])
          (.marker "writeBackWriteId") := by
  simp [countPlan, Option.filter, readable]

theorem usageCount_staged (row : Record) (count : Rat) (writeId : String)
    : usageCount (row.assign ((Record.ofFields [("usageCount", .num count)]).set
        "writeBackWriteId" (.str writeId))) = count := by
  simp [usageCount, Record.ofFields]

theorem countPlan_writes {row : Option Record} (writes : (countPlan canRead row).writes = true)
    (writeId : String)
    : (countPlan canRead row).idempotent = false
      ∧ storedCount ((countPlan canRead row).landed writeId row) - storedCount row = 1 := by
  cases row with
  | none => cases writes
  | some row =>
    cases readable : canRead row with
    | false => simp [countPlan, Option.filter, readable, WriteBack.Plan.writes] at writes
    | true =>
      rw [countPlan_readable readable]
      refine ⟨rfl, ?_⟩
      have raised := usageCount_staged row (usageCount row + 1) writeId
      simp only [storedCount, WriteBack.Plan.landed, WriteBack.Plan.staged,
        WriteBack.Plan.markerField, WriteBack.Plan.values, Option.getD_some, Option.map_some,
        raised]
      exact add_sub_cancel_left _ 1

/-- A count's commit that lands raises the count of the row it has confirmed by one, and is
logged as one that may not be repeated; before it no such commit is logged.
-/
theorem landed_count {prepared : Record} {helper next : WriteBack.State} {resolves : Bool}
    (sound : helper.Sound (countCall canRead prepared))
    (planned : WriteBack.PlannedOn (countCall canRead prepared) (some prepared) helper)
    (current : ∀ row plan writeId, helper.phase = .confirmed row plan writeId → helper.stored = row)
    (taken : WriteBack.step (countCall canRead prepared) helper (.commit resolves true) = some next)
    : storedCount next.stored - storedCount helper.stored = 1
      ∧ WriteBack.unrepeatableCommits helper.log = 0
      ∧ WriteBack.unrepeatableCommits next.log = 1 := by
  obtain ⟨stored, basis, attempt, phase, log⟩ := helper
  cases phase with
  | confirmed row plan writeId =>
    obtain rfl : stored = row := current row plan writeId rfl
    obtain ⟨⟨attempt, answered⟩, -⟩ := planned stored plan rfl
    obtain rfl : countPlan canRead stored = plan := Option.some.inj answered
    have underway : WriteBack.Underway (countCall canRead prepared) basis log stored
        (countPlan canRead stored) := sound
    obtain ⟨unrepeatable, raised⟩ := countPlan_writes underway.writes writeId
    have counted : WriteBack.unrepeatableCommits
        (log ++ [.committed (countPlan canRead stored) writeId true]) = 1 := by
      simp [WriteBack.unrepeatableCommits_append, WriteBack.Event.unrepeatable, unrepeatable,
        underway.clean]
    simp only [WriteBack.step] at taken
    split at taken
    · cases taken
      exact ⟨raised, underway.clean, counted⟩
    · cases taken
      exact ⟨raised, underway.clean, counted⟩
  | _ => cases taken

theorem unrepeatableCommits_mono {call : WriteBack.Call} {state next : WriteBack.State}
    {label : WriteBack.Label} (taken : WriteBack.step call state label = some next)
    : WriteBack.unrepeatableCommits state.log ≤ WriteBack.unrepeatableCommits next.log := by
  obtain ⟨events, log⟩ := WriteBack.step_log taken
  rw [log, WriteBack.unrepeatableCommits, WriteBack.unrepeatableCommits, List.countP_append]
  omega

-- The invariant

def UsageRequest.keys : UsageRequest → List UsageKey
  | .working _ (.lockingPair id _) => [.memory id]
  | .working batch (.reading id) | .working batch (.gating id)
  | .working batch (.claiming id _) | .working batch (.counting id _ _) => bothKeys batch id
  | .working _ (.releasing _ held) => held
  | .idle | .answered _ | .crashed | .working _ .scoping | .working _ .picking
  | .working _ (.prechecking _) | .working _ (.locking _) => []

def UsageState.Raised (state : UsageState) (agent : AgentId) (memory : String) : Prop :=
  (agent, memory) ∈ state.raises.map fun raise => (raise.agent, raise.memory)

/-- What a count has established: the pair's ledger row is stored, the pair is raised only
when the write-back has logged the commit, and the row it has confirmed is still stored.
-/
structure Counting (state : UsageState) (batch : Batch) (id : String) (prepared : Record)
    (helper : WriteBack.State)
    : Prop where
  credited : Credited state.ledger batch.agent id
  sound : helper.Sound (countCall batch.canRead prepared)
  selected : WriteBack.Selected (countCall batch.canRead prepared) (some prepared) helper
  planned : WriteBack.PlannedOn (countCall batch.canRead prepared) (some prepared) helper
  once : state.Raised batch.agent id → 0 < WriteBack.unrepeatableCommits helper.log
  current : ∀ row plan writeId, helper.phase = .confirmed row plan writeId
    → state.memories id = row

def RequestSound (state : UsageState) : UsageRequest → Prop
  | .working batch (.gating id) | .working batch (.claiming id _) =>
    state.ledger.get (ledgerId batch.agent id) = none
  | .working batch (.counting id prepared helper) => Counting state batch id prepared helper
  | .working _ (.releasing _ held) => held.Nodup
  | _ => True

structure UsageInv (state : UsageState) : Prop where
  requests : ∀ caller, RequestSound state (state.requests caller)
  held : ∀ caller, state.locks.HoldsExactly caller (state.requests caller).keys
  once : (state.raises.map fun raise => (raise.agent, raise.memory)).Nodup
  amounts : ∀ raise ∈ state.raises, raise.amount = 1
  credited : ∀ raise ∈ state.raises, Credited state.ledger raise.agent raise.memory

theorem bothKeys_nodup (batch : Batch) (id : String) : (bothKeys batch id).Nodup := by
  simp [bothKeys]

variable {state : UsageState}

theorem UsageInv.credited_of_raised (h : UsageInv state) (raised : state.Raised agent memory)
    : Credited state.ledger agent memory := by
  obtain ⟨raise, member, same⟩ := List.mem_map.mp raised
  obtain ⟨rfl, rfl⟩ := Prod.mk.inj same
  exact h.credited raise member

variable {caller : Nat} {id : String}

theorem UsageInv.apart (h : UsageInv state) {other : Nat} (different : other ≠ caller)
    (holds : UsageKey.memory id ∈ (state.requests caller).keys)
    (otherHolds : UsageKey.memory another ∈ (state.requests other).keys)
    : another ≠ id := by
  rintro rfl
  exact (h.held other).disjoint (h.held caller) different otherHolds holds

variable {next : UsageState} {request : UsageRequest}

theorem RequestSound.frame (h : RequestSound state request)
    (credited : ∀ agent memory, Credited state.ledger agent memory
      → Credited next.ledger agent memory)
    (apart : ∀ memory, UsageKey.memory memory ∈ request.keys
      → next.memories memory = state.memories memory
        ∧ ∀ agent, (state.ledger.get (ledgerId agent memory) = none
            → next.ledger.get (ledgerId agent memory) = none)
          ∧ (next.Raised agent memory → state.Raised agent memory))
    : RequestSound next request := by
  cases request with
  | idle | answered _ | crashed => trivial
  | working batch stage =>
    cases stage with
    | scoping | picking | prechecking _ | locking _ | lockingPair _ _ | reading _ => trivial
    | releasing _ held => exact h
    | gating id | claiming id _ =>
      obtain ⟨-, kept⟩ := apart id (by simp [UsageRequest.keys, bothKeys])
      exact (kept batch.agent).1 h
    | counting id prepared helper =>
      obtain ⟨row, kept⟩ := apart id (by simp [UsageRequest.keys, bothKeys])
      exact ⟨credited _ _ h.credited, h.sound, h.selected, h.planned,
        fun raised => h.once ((kept batch.agent).2 raised),
        fun stored plan writeId confirmed => row.trans (h.current stored plan writeId confirmed)⟩

theorem RequestSound.same (h : RequestSound state request)
    (memories : next.memories = state.memories) (ledger : next.ledger = state.ledger)
    (raises : next.raises = state.raises)
    : RequestSound next request := by
  refine h.frame (fun agent memory credited => ledger ▸ credited) fun memory _ =>
    ⟨by rw [memories], fun agent => ⟨fun absent => ledger ▸ absent, fun raised => ?_⟩⟩
  unfold UsageState.Raised at raised
  rwa [raises] at raised

/-- A move of one request that changes no table keeps the invariant, when the locks are right
for it and for the others.
-/
theorem UsageInv.relock {locks : Ledger UsageKey Nat} (h : UsageInv state)
    (sound : RequestSound state request) (own : locks.HoldsExactly caller request.keys)
    (others : ∀ other, other ≠ caller → locks.HoldsExactly other (state.requests other).keys)
    : UsageInv ({ state with locks }.goto caller request) := by
  refine ⟨?_, ?_, h.once, h.amounts, h.credited⟩
  · exact (Function.forall_update_iff _ fun _ request => RequestSound _ request).mpr
      ⟨sound.same rfl rfl rfl, fun other _ => (h.requests other).same rfl rfl rfl⟩
  · exact (Function.forall_update_iff _
      fun other (request : UsageRequest) => locks.HoldsExactly other request.keys).mpr ⟨own, others⟩

theorem UsageInv.goto (h : UsageInv state) (sound : RequestSound state request)
    (keys : request.keys = (state.requests caller).keys)
    : UsageInv (state.goto caller request) := by
  have own : state.locks.HoldsExactly caller request.keys := keys ▸ h.held caller
  exact h.relock sound own (fun other _ => h.held other)

-- Locks

theorem UsageInv.take (h : UsageInv state) (taken : takeLock state caller = some next)
    : UsageInv next := by
  have held := h.held caller
  unfold takeLock at taken
  split at taken
  · rename_i batch id at_locking
    rw [at_locking] at held
    split at taken
    · rename_i locks locked
      cases taken
      exact h.relock trivial (held.take locked)
        (fun other different => (h.held other).take_other locked different)
    · cases taken
      exact h.goto trivial (by rw [at_locking]; rfl)
  · rename_i batch id attempt at_locking
    rw [at_locking] at held
    split at taken
    · rename_i locks locked
      cases taken
      exact h.relock trivial (held.take locked)
        (fun other different => (h.held other).take_other locked different)
    · cases taken
      split
      · exact h.goto trivial (by rw [at_locking]; rfl)
      · exact h.goto (List.nodup_singleton _) (by rw [at_locking]; rfl)
  · cases taken

theorem UsageInv.release (h : UsageInv state)
    (taken : usageStep state (.release caller) = some next)
    : UsageInv next := by
  have sound := h.requests caller
  have held := h.held caller
  simp only [usageStep] at taken
  split at taken
  · rename_i batch id key rest at_releasing
    rw [at_releasing] at sound held
    obtain ⟨fresh, distinct⟩ := List.nodup_cons.mp sound
    have own : state.locks.holder key = some caller := (held key).mpr List.mem_cons_self
    have freed : (state.locks.unlock caller key).HoldsExactly caller rest :=
      held.release fresh
    cases taken
    refine h.relock ?_ ?_ (fun other different => (h.held other).release_other own different)
    · split
      · trivial
      · exact distinct
    · split
      · rename_i last
        rw [last] at freed
        exact freed
      · exact freed
  · cases taken

-- Claims and counts

theorem RequestSound.claimed (h : RequestSound state request) (agent : AgentId) (id : String)
    (attribution : Option String) (now : String)
    (apart : ∀ another, UsageKey.memory another ∈ request.keys → another ≠ id)
    : RequestSound { state with
        ledger := state.ledger.set (ledgerId agent id) (ledgerRecord agent id attribution now) }
      request := by
  exact h.frame (fun _ _ credited => credited.set agent id attribution now) fun memory mine =>
    ⟨rfl, fun _ => ⟨fun absent => uncredited_set absent (apart memory mine) _, fun raised => raised⟩⟩

theorem sound_countStart {batch : Batch} {prepared : Record}
    (credited : Credited state.ledger batch.agent id) (fresh : ¬ state.Raised batch.agent id)
    : RequestSound state (countStart batch id prepared) where
  credited
  sound := by
    simp [WriteBack.State.Sound, WriteBack.Justified, WriteBack.unrepeatableCommits]
  selected := ⟨rfl, Or.inl rfl⟩
  planned := .of_unheld rfl
  once raised := absurd raised fresh
  current := by
    intro row plan writeId confirmed
    cases confirmed

theorem UsageInv.claim {landed resolves : Bool} (h : UsageInv state)
    (taken : usageStep state (.claim caller landed resolves) = some next)
    : UsageInv next := by
  have absent := h.requests caller
  have held := h.held caller
  simp only [usageStep] at taken
  split at taken
  · rename_i batch id prepared at_claiming
    rw [at_claiming] at absent held
    have absent : state.ledger.get (ledgerId batch.agent id) = none := absent
    have fresh : ¬ state.Raised batch.agent id := by
      intro raised
      obtain ⟨row, stored, -⟩ := h.credited_of_raised raised
      rw [absent] at stored
      cases stored
    have both : (state.requests caller).keys = bothKeys batch id := by
      rw [at_claiming]
      rfl
    split at taken
    · rename_i allowed
      cases taken
      cases landed with
      | false =>
        cases resolves with
        | false => exact h.goto (bothKeys_nodup batch id) both.symm
        | true => simp [commits, absent] at allowed
      | true =>
        simp only [↓reduceIte]
        let claimed : UsageState := { state with
          ledger := state.ledger.set (ledgerId batch.agent id)
            (ledgerRecord batch.agent id batch.attribution batch.now) }
        have others (other : Nat) (different : other ≠ caller)
            : RequestSound claimed (state.requests other) := by
          refine (h.requests other).claimed batch.agent id batch.attribution batch.now ?_
          intro another holds
          exact h.apart different (by rw [both]; simp [bothKeys]) holds
        have own : RequestSound claimed
            (if resolves then countStart batch id prepared else leave batch id) := by
          split
          · exact sound_countStart (credited_set _ _ _ _ _) fresh
          · exact bothKeys_nodup batch id
        refine ⟨?_, ?_, h.once, h.amounts, ?_⟩
        · intro other
          by_cases same : other = caller
          · subst same
            simp only [UsageState.goto, Function.update_self]
            exact own.same rfl rfl rfl
          · simp only [UsageState.goto, Function.update_of_ne same]
            exact (others other same).same rfl rfl rfl
        · intro other
          by_cases same : other = caller
          · subst same
            simp only [UsageState.goto, Function.update_self]
            have kept : (if resolves then countStart batch id prepared
                else leave batch id).keys = bothKeys batch id := by
              split <;> rfl
            rw [kept]
            exact held
          · simp only [UsageState.goto, Function.update_of_ne same]
            exact h.held other
        · intro raise member
          exact (h.credited raise member).set _ _ _ _
    · cases taken
  · cases taken

theorem raised_landedRaise {before after : Option Record} {step : WriteBack.Label}
    (h : (other, another) ∈ (landedRaise agent id before after step).map
      fun raise => (raise.agent, raise.memory))
    : other = agent ∧ another = id
      ∧ ∃ resolves, step = .commit resolves true := by
  unfold landedRaise at h
  split at h
  · rename_i resolves
    simp only [List.map_cons, List.map_nil, List.mem_singleton] at h
    obtain ⟨rfl, rfl⟩ := Prod.mk.inj h
    exact ⟨rfl, rfl, resolves, rfl⟩
  · cases h

theorem RequestSound.counted {stored : Option Record} {added : List Raise}
    (h : RequestSound state request)
    (memories : next.memories = Function.update state.memories id stored)
    (ledger : next.ledger = state.ledger) (raises : next.raises = state.raises ++ added)
    (own : ∀ raise ∈ added, raise.memory = id)
    (apart : ∀ another, UsageKey.memory another ∈ request.keys → another ≠ id)
    : RequestSound next request := by
  refine h.frame (fun agent memory credited => ledger ▸ credited) fun memory mine => ?_
  have different : memory ≠ id := apart memory mine
  refine ⟨by rw [memories, Function.update_of_ne different],
    fun agent => ⟨fun absent => ledger ▸ absent, fun raised => ?_⟩⟩
  obtain ⟨raise, member, same⟩ := List.mem_map.mp raised
  rw [raises] at member
  rcases List.mem_append.mp member with old | new
  · exact List.mem_map.mpr ⟨raise, old, same⟩
  · obtain ⟨-, its⟩ := Prod.mk.inj same
    exact absurd (its.symm.trans (own raise new)) different

theorem UsageInv.count {step : WriteBack.Label} (h : UsageInv state)
    (taken : countStep state caller step = some next)
    : UsageInv next := by
  unfold countStep at taken
  split at taken
  · cases taken
  · rename_i step _ _ batch id prepared helper at_counting foreign
    obtain ⟨inner, stepped, rfl⟩ := Option.map_eq_some_iff.mp taken
    have counting : Counting state batch id prepared helper := by
      have sound := h.requests caller
      rw [at_counting] at sound
      exact sound
    have both : (state.requests caller).keys = bothKeys batch id := by
      rw [at_counting]
      rfl
    let now : WriteBack.State := { helper with stored := state.memories id }
    have sound : now.Sound (countCall batch.canRead prepared) := counting.sound
    have planned : WriteBack.PlannedOn (countCall batch.canRead prepared) (some prepared) now :=
      counting.planned
    have notOther (row : Option Record) : step ≠ .other row := fun same => foreign row same
    obtain ⟨selected, stillPlanned, -⟩ :=
      WriteBack.step_selected notOther (show WriteBack.Selected _ _ now from counting.selected)
        planned stepped
    let added := landedRaise batch.agent id (state.memories id) inner.stored step
    -- A raise is added only by a commit that lands, on the row the count has confirmed.
    have lands (resolves : Bool) (label : step = .commit resolves true)
        : storedCount inner.stored - storedCount (state.memories id) = 1
          ∧ WriteBack.unrepeatableCommits helper.log = 0
          ∧ WriteBack.unrepeatableCommits inner.log = 1 := by
      subst label
      exact landed_count sound planned counting.current stepped
    have addedOwn (raise : Raise) (member : raise ∈ added)
        : raise.agent = batch.agent ∧ raise.memory = id ∧ ∃ resolves, step = .commit resolves true :=
      raised_landedRaise (List.mem_map_of_mem member)
    refine ⟨?_, ?_, ?_, ?_, ?_⟩
    · intro other
      by_cases same : other = caller
      · subst same
        simp only [UsageState.goto, Function.update_self]
        refine ⟨counting.credited, sound.step stepped, selected, stillPlanned, ?_, ?_⟩
        · intro raised
          obtain ⟨raise, member, pair⟩ := List.mem_map.mp raised
          rcases List.mem_append.mp member with old | new
          · have already := counting.once (List.mem_map.mpr ⟨raise, old, pair⟩)
            have kept : WriteBack.unrepeatableCommits now.log ≤ _ := unrepeatableCommits_mono stepped
            exact lt_of_lt_of_le already kept
          · obtain ⟨-, -, resolves, label⟩ := addedOwn raise new
            rw [(lands resolves label).2.2]
            exact Nat.one_pos
        · intro row plan writeId confirmed
          simp only [Function.update_self]
          exact WriteBack.step_confirmed notOther stepped confirmed
      · simp only [UsageState.goto, Function.update_of_ne same]
        refine (h.requests other).counted rfl rfl rfl (fun raise new => (addedOwn raise new).2.1) ?_
        intro another holds
        exact h.apart same (by rw [both]; simp [bothKeys]) holds
    · intro other
      by_cases same : other = caller
      · subst same
        simp only [UsageState.goto, Function.update_self]
        have held := h.held other
        rw [both] at held
        exact held
      · simp only [UsageState.goto, Function.update_of_ne same]
        exact h.held other
    · rw [UsageState.goto, List.map_append, List.nodup_append]
      refine ⟨h.once, ?_, ?_⟩
      · unfold landedRaise
        split <;> simp
      rintro pair old ⟨agent, memory⟩ new rfl
      obtain ⟨rfl, rfl, resolves, label⟩ := raised_landedRaise new
      have already := counting.once old
      rw [(lands resolves label).2.1] at already
      exact Nat.lt_irrefl 0 already
    · intro raise member
      rcases List.mem_append.mp member with old | new
      · exact h.amounts raise old
      obtain ⟨-, -, resolves, label⟩ := addedOwn raise new
      have raised := (lands resolves label).1
      subst label
      simp only [landedRaise, List.mem_singleton] at new
      rw [new]
      exact raised
    · intro raise member
      rcases List.mem_append.mp member with old | new
      · exact h.credited raise old
      · obtain ⟨agent, memory, -⟩ := addedOwn raise new
        rw [agent, memory]
        exact counting.credited
  · cases taken

-- Runs

/-- No other writer commits a row between a count's last check of it and the count's commit.
An owner's write takes the memory's lock until it has committed, so it never does.
-/
def Unraced : Guard UsageState UsageLabel
  | state, .write memory _ => ∀ caller batch prepared helper row plan writeId,
      state.requests caller = .working batch (.counting memory prepared helper)
      → helper.phase ≠ .confirmed row plan writeId
  | _, _ => True

theorem UsageInv.write {row : Option Record} (h : UsageInv state)
    (unraced : Unraced state (.write memory row))
    : UsageInv { state with memories := Function.update state.memories memory row } := by
  refine ⟨?_, h.held, h.once, h.amounts, h.credited⟩
  intro caller
  have sound := h.requests caller
  have free := unraced caller
  revert sound free
  generalize state.requests caller = request
  intro sound free
  cases request with
  | idle | answered _ | crashed => trivial
  | working batch stage =>
    cases stage with
    | scoping | picking | prechecking _ | locking _ | lockingPair _ _ | reading _ => trivial
    | gating id | claiming id _ => exact sound
    | releasing id held => exact sound
    | counting id prepared helper =>
      refine ⟨sound.credited, sound.sound, sound.selected, sound.planned, sound.once, ?_⟩
      intro stored plan writeId confirmed
      have different : id ≠ memory := by
        rintro rfl
        exact free batch prepared helper stored plan writeId rfl confirmed
      simp only [Function.update_of_ne different]
      exact sound.current stored plan writeId confirmed

theorem UsageInv.crash (h : UsageInv state)
    : UsageInv { state with
        locks := Ledger.fresh
        requests := fun caller => (state.requests caller).crash } := by
  refine ⟨?_, ?_, h.once, h.amounts, h.credited⟩
  · intro caller
    simp only
    cases state.requests caller <;> trivial
  · intro caller
    have none_held : (state.requests caller).crash.keys = [] := by
      cases state.requests caller <;> rfl
    simp only [none_held]
    exact Ledger.holdsExactly_fresh caller

theorem UsageInv.initially (h : usage.initial state) : UsageInv state := by
  obtain ⟨idle, locks, raises⟩ := h
  refine ⟨?_, ?_, by simp [raises], by simp [raises], by simp [raises]⟩
  · intro caller
    rw [idle caller]
    trivial
  · intro caller
    rw [idle caller, locks]
    exact Ledger.holdsExactly_fresh caller

theorem sound_arrival (state : UsageState) (auth : AgentAuth) (allowed : Bool) (data : Record)
    (attribution : Option String) (now : String)
    : RequestSound state (postArrival auth allowed data attribution now)
      ∧ (postArrival auth allowed data attribution now).keys = [] := by
  unfold postArrival
  split <;> exact ⟨trivial, rfl⟩

theorem UsageInv.step {state next : UsageState} {label : UsageLabel} (h : UsageInv state)
    (unraced : Unraced state label) (taken : usageStep state label = some next)
    : UsageInv next := by
  cases label with
  | take caller => exact h.take taken
  | release caller => exact h.release taken
  | claim caller landed resolves => exact h.claim taken
  | count caller step => exact h.count taken
  | crash =>
    cases taken
    exact h.crash
  | write memory row =>
    cases taken
    exact h.write unraced
  | post caller auth allowed data attribution now =>
    simp only [usageStep] at taken
    split at taken
    · rename_i at_idle
      cases taken
      obtain ⟨sound, keys⟩ := sound_arrival state auth allowed data attribution now
      exact h.goto sound (by rw [at_idle, keys]; rfl)
    · cases taken
  | cite caller auth usedMemoryIds now =>
    simp only [usageStep] at taken
    split at taken
    · rename_i at_idle
      cases taken
      unfold citeArrival
      split <;> exact h.goto trivial (by rw [at_idle]; rfl)
    · cases taken
  | resolveScope caller scope =>
    simp only [usageStep] at taken
    split at taken
    · rename_i batch at_scoping
      cases taken
      cases scope <;> exact h.goto trivial (by rw [at_scoping]; rfl)
    · cases taken
  | pick caller =>
    simp only [usageStep] at taken
    split at taken
    · rename_i batch at_picking
      cases taken
      unfold picked
      split
      · exact h.goto trivial (by rw [at_picking]; rfl)
      · split <;> exact h.goto trivial (by rw [at_picking]; rfl)
    · cases taken
  | precheck caller readable =>
    simp only [usageStep] at taken
    split at taken
    · rename_i batch id at_prechecking
      cases taken
      unfold prechecked
      generalize Option.isSome _ = readable
      cases readable <;> exact h.goto trivial (by rw [at_prechecking]; rfl)
    · cases taken
  | lockRefused caller =>
    simp only [usageStep] at taken
    split at taken
    · rename_i batch id at_locking
      cases taken
      exact h.goto trivial (by rw [at_locking]; rfl)
    · rename_i batch id attempt at_locking
      cases taken
      exact h.goto (List.nodup_singleton _) (by rw [at_locking]; rfl)
    · cases taken
  | readLedger caller readable =>
    simp only [usageStep] at taken
    split at taken
    · rename_i batch id at_reading
      cases taken
      split
      · rename_i fresh
        rw [Bool.and_eq_true, Option.isNone_iff_eq_none] at fresh
        exact h.goto fresh.2 (by rw [at_reading]; rfl)
      · exact h.goto (bothKeys_nodup batch id) (by rw [at_reading]; rfl)
    · cases taken
  | readMemory caller readable =>
    have sound := h.requests caller
    simp only [usageStep] at taken
    split at taken
    · rename_i batch id at_gating
      rw [at_gating] at sound
      cases taken
      unfold gated
      split
      · exact h.goto sound (by rw [at_gating]; rfl)
      · exact h.goto (bothKeys_nodup batch id) (by rw [at_gating]; rfl)
    · cases taken
  | settle caller =>
    simp only [usageStep] at taken
    split at taken
    · rename_i batch id prepared helper at_counting
      split at taken
      · cases taken
        exact h.goto (bothKeys_nodup batch id) (by rw [at_counting]; rfl)
      · cases taken
    · cases taken

theorem usageInv_of_reachable (reached : usage.ReachableUnder Unraced state)
    : UsageInv state := by
  refine System.ReachableUnder.invariant (fun _ initial => UsageInv.initially initial) ?_ reached
  intro before label after inv unraced taken
  exact inv.step unraced taken

-- Totals

def UsageState.pairRaise (state : UsageState) (agent : AgentId) (memory : String) : Rat :=
  ((state.raises.filter fun raise => raise.agent = agent ∧ raise.memory = memory).map
    Raise.amount).sum

def UsageState.memoryRaise (state : UsageState) (memory : String) : Rat :=
  ((state.raises.filter fun raise => raise.memory = memory).map Raise.amount).sum

def UsageState.ledgerRows (state : UsageState) (memory : String)
    : InsertionMap String Record :=
  state.ledger.filter fun entry => entry.2.get "memoryId" = some (.str memory)

theorem sum_amounts {raises : List Raise} (ones : ∀ raise ∈ raises, raise.amount = 1)
    : (raises.map Raise.amount).sum = raises.length := by
  induction raises with
  | nil => rfl
  | cons raise rest ih =>
    obtain ⟨one, later⟩ := List.forall_mem_cons.mp ones
    rw [List.map_cons, List.sum_cons, ih later, one, List.length_cons, Nat.cast_add, add_comm]
    rfl

theorem UsageInv.pairRaise_le (h : UsageInv state) (agent : AgentId) (memory : String)
    : state.pairRaise agent memory ≤ 1 := by
  let raises := state.raises.filter fun raise => raise.agent = agent ∧ raise.memory = memory
  have kept : raises.Sublist state.raises := List.filter_sublist
  have distinct : (raises.map fun raise => (raise.agent, raise.memory)).Nodup :=
    h.once.sublist (kept.map _)
  have single : raises.map (fun raise => (raise.agent, raise.memory)) ⊆ [(agent, memory)] := by
    intro pair member
    obtain ⟨raise, inside, rfl⟩ := List.mem_map.mp member
    have same := List.of_mem_filter inside
    simp only [decide_eq_true_eq] at same
    simp [same.1, same.2]
  have few := (distinct.subperm single).length_le
  rw [List.length_map, List.length_singleton] at few
  have sum := sum_amounts (fun raise member => h.amounts raise (kept.subset member))
  unfold UsageState.pairRaise
  rw [sum]
  exact_mod_cast few

theorem UsageInv.memoryRaise_le (h : UsageInv state) (memory : String)
    : state.memoryRaise memory ≤ (state.ledgerRows memory).length := by
  let raises := state.raises.filter fun raise => raise.memory = memory
  have kept : raises.Sublist state.raises := List.filter_sublist
  have distinct : (raises.map fun raise => ledgerId raise.agent raise.memory).Nodup := by
    have pairs : (raises.map fun raise => (raise.agent, raise.memory)).Nodup :=
      h.once.sublist (kept.map _)
    have ids := pairs.map_on (f := fun pair => ledgerId pair.1 pair.2) ?_
    · rw [List.map_map] at ids
      exact ids
    · rintro ⟨agent, id⟩ - ⟨other, another⟩ - same
      obtain ⟨rfl, rfl⟩ := ledgerId_inj same
      rfl
  have stored : raises.map (fun raise => ledgerId raise.agent raise.memory)
      ⊆ (state.ledgerRows memory).map Prod.fst := by
    intro id member
    obtain ⟨raise, inside, rfl⟩ := List.mem_map.mp member
    have named : raise.memory = memory := by simpa using (List.mem_filter.mp inside).2
    obtain ⟨row, held, column⟩ := h.credited raise (kept.subset inside)
    refine List.mem_map.mpr ⟨_, List.mem_filter.mpr ⟨InsertionMap.mem_of_get held, ?_⟩, rfl⟩
    simp [column, named]
  have few := (distinct.subperm stored).length_le
  rw [List.length_map, List.length_map] at few
  have sum := sum_amounts (fun raise member => h.amounts raise (kept.subset member))
  unfold UsageState.memoryRaise
  rw [sum]
  exact_mod_cast few

-- Counts in the table

def Alone : Guard UsageState UsageLabel := fun _ label => ∀ memory row, label ≠ .write memory row

theorem memoryRaise_append (raises added : List Raise) (memory : String)
    : (((raises ++ added).filter fun raise => raise.memory = memory).map Raise.amount).sum
      = ((raises.filter fun raise => raise.memory = memory).map Raise.amount).sum
        + ((added.filter fun raise => raise.memory = memory).map Raise.amount).sum := by
  rw [List.filter_append, List.map_append, List.sum_append]

/-- The raises a step adds are what it changes the counts of the table by. -/
def Accounts (state next : UsageState) : Prop :=
  ∀ memory, storedCount (next.memories memory) - next.memoryRaise memory
    = storedCount (state.memories memory) - state.memoryRaise memory

theorem accounts_of_same (memories : next.memories = state.memories)
    (raises : next.raises = state.raises)
    : Accounts state next := by
  intro memory
  unfold UsageState.memoryRaise
  rw [memories, raises]

theorem accounts_count {step : WriteBack.Label} (h : UsageInv state)
    (taken : countStep state caller step = some next)
    : Accounts state next := by
  unfold countStep at taken
  split at taken
  · cases taken
  · rename_i step _ _ batch id prepared helper at_counting foreign
    obtain ⟨inner, stepped, rfl⟩ := Option.map_eq_some_iff.mp taken
    have counting : Counting state batch id prepared helper := by
      have sound := h.requests caller
      rw [at_counting] at sound
      exact sound
    let now : WriteBack.State := { helper with stored := state.memories id }
    obtain ⟨-, -, wrote⟩ := WriteBack.step_selected (fun row same => foreign row same)
      (show WriteBack.Selected (countCall batch.canRead prepared) (some prepared) now
        from counting.selected)
      counting.planned stepped
    have changed : storedCount inner.stored - storedCount (state.memories id)
        = ((landedRaise batch.agent id (state.memories id) inner.stored step).map
            Raise.amount).sum := by
      unfold landedRaise
      split
      · simp
      rename_i plain
      rcases wrote with same | ⟨_, _, _, resolves, label, -, -⟩
      · rw [same]
        exact sub_self _
      · exact absurd label (plain resolves)
    have whole : ((landedRaise batch.agent id (state.memories id) inner.stored step).filter
          fun raise => raise.memory = id)
        = landedRaise batch.agent id (state.memories id) inner.stored step := by
      unfold landedRaise
      split <;> simp
    intro memory
    simp only [UsageState.memoryRaise, UsageState.goto, memoryRaise_append]
    by_cases same : memory = id
    · subst same
      rw [Function.update_self, whole, ← changed, add_comm, sub_add_eq_sub_sub, sub_sub_cancel]
    have none_added : (landedRaise batch.agent id (state.memories id) inner.stored step).filter
        (fun raise => raise.memory = memory) = [] := by
      unfold landedRaise
      split <;> simp [Ne.symm same]
    rw [Function.update_of_ne same, none_added, List.map_nil, List.sum_nil, add_zero]
  · cases taken

theorem usageStep_tables {label : UsageLabel} (taken : usageStep state label = some next)
    (noCount : ∀ caller step, label ≠ .count caller step)
    (alone : ∀ memory row, label ≠ .write memory row)
    : next.memories = state.memories ∧ next.raises = state.raises := by
  cases label with
  | count caller step => exact absurd rfl (noCount caller step)
  | write memory row => exact absurd rfl (alone memory row)
  | crash =>
    cases taken
    exact ⟨rfl, rfl⟩
  | take caller =>
    simp only [usageStep, takeLock] at taken
    split at taken
    · split at taken <;> cases taken <;> exact ⟨rfl, rfl⟩
    · split at taken <;> cases taken <;> exact ⟨rfl, rfl⟩
    · cases taken
  | claim caller landed resolves =>
    simp only [usageStep] at taken
    split at taken
    · split at taken
      · cases taken
        exact ⟨rfl, rfl⟩
      · cases taken
    · cases taken
  | settle caller =>
    simp only [usageStep] at taken
    split at taken
    · split at taken
      · cases taken
        exact ⟨rfl, rfl⟩
      · cases taken
    · cases taken
  | lockRefused caller =>
    simp only [usageStep] at taken
    split at taken
    · cases taken
      exact ⟨rfl, rfl⟩
    · cases taken
      exact ⟨rfl, rfl⟩
    · cases taken
  | post | cite | resolveScope | pick | precheck | readLedger | readMemory | release =>
    simp only [usageStep] at taken
    split at taken
    · cases taken
      exact ⟨rfl, rfl⟩
    · cases taken

theorem accounts_step {label : UsageLabel} (h : UsageInv state) (alone : Alone state label)
    (taken : usageStep state label = some next)
    : Accounts state next := by
  by_cases counts : ∃ caller step, label = .count caller step
  · obtain ⟨caller, step, rfl⟩ := counts
    exact accounts_count h taken
  · obtain ⟨memories, raises⟩ := usageStep_tables taken
      (fun caller step same => counts ⟨caller, step, same⟩) alone
    exact accounts_of_same memories raises

/-- In a run of recordings and crashes alone every memory's count is its count at the start
and what recordings have raised it by, by induction on the run.
-/
theorem count_of_alone {start : UsageState} (initial : usage.initial start)
    (run : usage.ReachesUnder Alone start state) (memory : String)
    : storedCount (state.memories memory)
      = storedCount (start.memories memory) + state.memoryRaise memory := by
  have both : UsageInv state ∧ Accounts start state := by
    have begun : UsageInv start ∧ Accounts start start :=
      ⟨UsageInv.initially initial, accounts_of_same rfl rfl⟩
    refine @System.ReachesUnder.preserves _ _ usage Alone
      (fun now => UsageInv now ∧ Accounts start now) ?_ start state run begun
    rintro before label after ⟨inv, kept⟩ alone taken
    have unraced : Unraced before label := by
      cases label with
      | write memory row => exact absurd rfl (alone memory row)
      | _ => trivial
    exact ⟨inv.step unraced taken,
      fun memory => (accounts_step inv alone taken memory).trans (kept memory)⟩
  have balance := both.2 memory
  have fresh : start.memoryRaise memory = 0 := by
    unfold UsageState.memoryRaise
    rw [initial.2.2]
    rfl
  rw [fresh, sub_zero] at balance
  exact (sub_eq_iff_eq_add.mp balance)

end Flair.Usage
