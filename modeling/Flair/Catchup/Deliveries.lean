import Flair.Catchup.CatchupRuns
import Flair.Catchup.ReadPositionOrder
import Flair.Foundations.Watermark

/-! What the catch-up delivers: pages in strictly increasing position order, and no event
left out behind the stored position in runs that acknowledge only what pages have served
and whose events are committed ahead of the cursors served.
-/

namespace Flair.Catchup

open Dynamic Transition Watermark

variable {settings : CatchupSettings}

-- Page order

structure Searching (events : List OrgEventRow) (search : CatchupSearch) : Prop where
  yielded : ∀ event ∈ search.yielded, event ∈ events
  collected : Collected search.results
  listed : ∀ row ∈ search.results, row.event ∈ search.yielded

/-- Events have stamps of their own clocks and ids of their own, and pages are in order. -/
structure Ordered (state : CatchupState) : Prop where
  pending : ∀ writer event, state.stamped writer = some event → event.Stamped
  stamped : ∀ event ∈ state.events, event.Stamped
  distinct : (state.events.map OrgEventRow.id).Nodup
  searching : ∀ read search, state.read read = .searching search
    → Searching state.events search
  answered : ∀ read answer, state.read read = .answered answer
    → answer.events.Pairwise (fun a b => textLt a.position b.position)

@[simp] theorem catchup_goto_read (state : CatchupState) (read other : Nat) (stage : ReadStage)
    : (state.goto read stage).read other = if other = read then stage else state.read other := by
  simp [CatchupState.goto, Function.update_apply]

structure SameEvents (before after : CatchupState) : Prop where
  stamped : after.stamped = before.stamped
  events : after.events = before.events

variable {before after : CatchupState} {read : Nat}

theorem Ordered.reads (h : Ordered before) (same : SameEvents before after) {stage : ReadStage}
    (moved : after.read = (before.goto read stage).read)
    (searching : ∀ search, stage = .searching search → Searching before.events search)
    (answered : ∀ answer, stage = .answered answer
      → answer.events.Pairwise (fun a b => textLt a.position b.position))
    : Ordered after := by
  constructor
  · rw [same.stamped]
    exact h.pending
  · rw [same.events]
    exact h.stamped
  · rw [same.events]
    exact h.distinct
  · rw [same.events, moved]
    intro other search now
    rw [catchup_goto_read] at now
    split at now
    · exact searching search now
    · exact h.searching other search now
  · rw [moved]
    intro other answer now
    rw [catchup_goto_read] at now
    split at now
    · exact answered answer now
    · exact h.answered other answer now

theorem Ordered.same (h : Ordered before) (same : SameEvents before after)
    (reads : after.read = before.read)
    : Ordered after := by
  constructor
  · rw [same.stamped]
    exact h.pending
  · rw [same.events]
    exact h.stamped
  · rw [same.events]
    exact h.distinct
  · rw [same.events, reads]
    exact h.searching
  · rw [reads]
    exact h.answered

theorem positionMove_same {label : PositionLabel}
    (taken : positionMove settings before label = some after)
    : SameEvents before after ∧ after.read = before.read
      ∧ positionStep settings.key before.positions label = some after.positions := by
  obtain ⟨positions, moved, rfl⟩ := Option.map_eq_some_iff.mp taken
  exact ⟨⟨rfl, rfl⟩, rfl, moved⟩

variable {writer : Nat}

theorem Ordered.stamps (h : Ordered before) {id : String} {targetIds : Option (List String)}
    {expiresAt : Option String}
    (taken : stampStep before writer id targetIds expiresAt = some after)
    : Ordered after := by
  unfold stampStep at taken
  split at taken
  · obtain ⟨createdAt, iso, rfl⟩ := Option.map_eq_some_iff.mp taken
    refine ⟨?_, h.stamped, h.distinct, h.searching, h.answered⟩
    intro other event now
    simp only [Function.update_apply] at now
    split at now
    · cases now
      obtain ⟨nonempty, clear⟩ := clear_toISOString iso
      exact ⟨createdAt, rfl, nonempty, clear⟩
    · exact h.pending other event now
  · cases taken

theorem commitStep_cases (taken : commitStep before writer = some after)
    : ∃ event, before.stamped writer = some event
      ∧ (∀ other ∈ before.events, other.id ≠ event.id)
      ∧ after = { before with
          stamped := Function.update before.stamped writer none
          events := event :: before.events } := by
  unfold commitStep at taken
  split at taken
  · rename_i event stamp
    split at taken
    · rename_i fresh
      cases taken
      refine ⟨event, stamp, ?_, rfl⟩
      intro other member
      exact of_decide_eq_true (List.all_eq_true.mp fresh other member)
    · cases taken
  · cases taken

theorem Ordered.commits (h : Ordered before) (taken : commitStep before writer = some after)
    : Ordered after := by
  obtain ⟨event, stamp, fresh, rfl⟩ := commitStep_cases taken
  refine ⟨?_, ?_, ?_, ?_, h.answered⟩
  · intro other pending now
    simp only [Function.update_apply] at now
    split at now
    · cases now
    · exact h.pending other pending now
  · exact List.forall_mem_cons.mpr ⟨h.pending writer event stamp, h.stamped⟩
  · refine List.nodup_cons.mpr ⟨?_, h.distinct⟩
    intro member
    obtain ⟨other, present, same⟩ := List.mem_map.mp member
    exact fresh other present same
  · intro read search now
    obtain ⟨yielded, collected, listed⟩ := h.searching read search now
    exact ⟨fun event member => List.mem_cons_of_mem _ (yielded event member), collected, listed⟩

/-- Everything a read's step can do to it, short of its end. -/
inductive ReadMove (settings : CatchupSettings) (before : CatchupState) (read : Nat)
    : CatchupState → Prop where
  | turns (stage : ReadStage) (plain : ∀ search, stage ≠ .searching search)
      (unanswered : ∀ answer, stage ≠ .answered answer)
      : ReadMove settings before read (before.goto read stage)
  | ensures (stage : ReadStage) (plain : ∀ search, stage ≠ .searching search)
      (unanswered : ∀ answer, stage ≠ .answered answer) (call worker : Nat) (table : Bool)
      (initial : String) (now : Int)
      (floor : initialPosition now settings.backfillMs = some initial)
      (after : CatchupState)
      (moved : positionMove settings (before.goto read stage)
        (.ensure call worker table initial) = some after)
      : ReadMove settings before read after
  | begins (resolved : ResolvedAfter) (began : Option (List OrgEventRow))
      (stored : began = none ∨ began = some before.events)
      : ReadMove settings before read
          (before.goto read (.searching { resolved, began, yielded := [], results := [] }))
  | yields (search : CatchupSearch) (event : OrgEventRow)
      (stage : before.read read = .searching search) (began : search.began.isSome)
      (stored : event ∈ before.events) (fresh : event ∉ search.yielded)
      : ReadMove settings before read (before.goto read (.searching { search with
          yielded := event :: search.yielded
          results := collectRow settings.dateOf
            (search.resolved.opts settings.participantId before.clock) search.results event }))

variable {call worker : Nat}

theorem resolveStep_cases {table readable : Bool}
    (taken : resolveStep settings before read table readable call worker = some after)
    : ReadMove settings before read after := by
  unfold resolveStep at taken
  split at taken
  · simp only [resolveAfter] at taken
    generalize (if table = true then readRow before.positions readable else none) = watermark
      at taken
    split at taken
    · cases taken
      exact .turns _ (by simp) (by simp)
    split at taken
    · cases taken
      exact .turns _ (by simp) (by simp)
    split at taken
    · cases taken
      exact .turns _ (by simp) (by simp)
    · obtain ⟨initial, floor, moved⟩ := Option.bind_eq_some_iff.mp taken
      exact .ensures _ (by simp) (by simp) call worker table initial before.clock floor after
        moved
  · cases taken

theorem ensuredStep_cases (settings : CatchupSettings)
    (taken : ensuredStep before read = some after)
    : ReadMove settings before read after := by
  unfold ensuredStep at taken
  split at taken
  · split at taken
    · cases taken
      exact .turns _ (by simp) (by simp)
    · cases taken
  · cases taken

theorem searchStep_cases (settings : CatchupSettings) {table : Bool}
    (taken : searchStep before read table = some after)
    : ReadMove settings before read after := by
  unfold searchStep at taken
  split at taken
  · cases taken
    apply ReadMove.begins
    cases table with
    | true => exact .inr rfl
    | false => exact .inl rfl
  · cases taken

variable {event : OrgEventRow}

theorem yieldStep_cases (taken : yieldStep settings before read event = some after)
    : ReadMove settings before read after := by
  unfold yieldStep at taken
  split at taken
  · rename_i search stage
    split at taken
    · rename_i enabled
      cases taken
      obtain ⟨began, stored, fresh, -⟩ := enabled
      exact .yields search event stage began stored fresh
    · cases taken
  · cases taken

def CatchupState.ended (state : CatchupState) (read : Nat) (search : CatchupSearch)
    : CatchupState :=
  { state.goto read (.answered search.answer) with
    returned := search.page.page.map PositionedEvent.event ++ state.returned
    served := (if state.InSequence search then
      search.page.nextAfter :: search.page.page.map PositionedEvent.position
      else []) ++ state.served }

theorem endStep_cases (taken : endStep before read = some after)
    : ∃ search, before.read read = .searching search ∧ search.complete = true
      ∧ after = before.ended read search := by
  unfold endStep at taken
  split at taken
  · rename_i search stage
    split at taken
    · rename_i complete
      cases taken
      exact ⟨search, stage, complete, rfl⟩
    · cases taken
  · cases taken

theorem getStep_cases {cursor since : Option String} {limit : Option (Option Rat)}
    (taken : getStep settings before read cursor since limit = some after)
    : ReadMove settings before read after := by
  unfold getStep at taken
  split at taken
  · split at taken <;> cases taken <;>
      exact .turns _ (by simp) (by simp)
  · cases taken

variable {search : CatchupSearch}

theorem Searching.yield {events : List OrgEventRow} (h : Searching events search)
    (distinct : (events.map OrgEventRow.id).Nodup) (stamped : ∀ event ∈ events, event.Stamped)
    (stored : event ∈ events) (fresh : event ∉ search.yielded) (opts : CatchupCollectOpts)
    : Searching events { search with
        yielded := event :: search.yielded
        results := collectRow settings.dateOf opts search.results event } := by
  have apart (row : PositionedEvent) (member : row ∈ search.results)
      : row.event.id ≠ event.id := by
    intro same
    have listed := h.listed row member
    have equal : row.event = event :=
      List.inj_on_of_nodup_map distinct (h.yielded row.event listed) stored same
    exact fresh (equal ▸ listed)
  refine ⟨List.forall_mem_cons.mpr ⟨stored, h.yielded⟩, ?_, ?_⟩
  · unfold collectRow
    split
    · constructor
      · rw [List.map_append, List.nodup_append]
        refine ⟨h.collected.distinct, List.nodup_singleton _, ?_⟩
        intro id member other single same
        obtain ⟨row, present, rfl⟩ := List.mem_map.mp member
        obtain rfl := List.mem_singleton.mp single
        exact apart row present same
      · intro row member
        rcases List.mem_append.mp member with old | new
        · exact h.collected.positioned row old
        · obtain rfl := List.mem_singleton.mp new
          exact ⟨rfl, stamped event stored⟩
    · exact h.collected
  · intro row member
    unfold collectRow at member
    split at member
    · rcases List.mem_append.mp member with old | new
      · exact List.mem_cons_of_mem _ (h.listed row old)
      · obtain rfl := List.mem_singleton.mp new
        exact List.mem_cons_self
    · exact List.mem_cons_of_mem _ (h.listed row member)

theorem Ordered.readMove (h : Ordered before) (move : ReadMove settings before read after)
    : Ordered after := by
  cases move with
  | turns stage plain unanswered =>
    exact h.reads ⟨rfl, rfl⟩ rfl (fun search now => absurd now (plain search))
      (fun answer now => absurd now (unanswered answer))
  | ensures stage plain unanswered call worker table initial now floor after moved =>
    obtain ⟨same, reads, -⟩ := positionMove_same moved
    exact h.reads ⟨same.stamped, same.events⟩ reads
      (fun search now => absurd now (plain search))
      (fun answer now => absurd now (unanswered answer))
  | begins resolved began stored =>
    refine h.reads ⟨rfl, rfl⟩ rfl ?_ (by simp)
    intro search now
    cases now
    exact ⟨by simp, ⟨List.nodup_nil, by simp⟩, by simp⟩
  | yields search event stage began stored fresh =>
    refine h.reads ⟨rfl, rfl⟩ rfl ?_ (by simp)
    intro next now
    cases now
    exact (h.searching read search stage).yield h.distinct h.stamped stored fresh _

variable {state : CatchupState}

theorem Ordered.ends (h : Ordered state) (stage : state.read read = .searching search)
    : Ordered (state.ended read search) := by
  refine h.reads ⟨rfl, rfl⟩ rfl (by simp) ?_
  intro answer now
  cases now
  exact (h.searching read search stage).collected.strict.sublist (pageAfter_sublist _ _)

variable {label : CatchupLabel}

theorem Ordered.step (h : Ordered before) (taken : catchupStep settings before label = some after)
    : Ordered after := by
  cases label with
  | tick elapsed =>
    simp only [catchupStep, Option.ite_none_right_eq_some, Option.some.injEq] at taken
    obtain ⟨-, rfl⟩ := taken
    exact h.same ⟨rfl, rfl⟩ rfl
  | stamp writer id targetIds expiresAt => exact h.stamps taken
  | commit writer => exact h.commits taken
  | ack call worker table position =>
    simp only [catchupStep, Option.ite_none_right_eq_some] at taken
    obtain ⟨same, reads, -⟩ := positionMove_same taken.2
    exact h.same same reads
  | readPosition call readable =>
    obtain ⟨same, reads, -⟩ := positionMove_same taken
    exact h.same same reads
  | putPosition call now landed resolves =>
    obtain ⟨same, reads, -⟩ := positionMove_same taken
    exact h.same same reads
  | rereadPosition call readable =>
    obtain ⟨same, reads, -⟩ := positionMove_same taken
    exact h.same same reads
  | get read after since limit => exact h.readMove (getStep_cases taken)
  | resolve read table readable call worker => exact h.readMove (resolveStep_cases taken)
  | ensured read => exact h.readMove (ensuredStep_cases settings taken)
  | search read table => exact h.readMove (searchStep_cases settings taken)
  | yields read event => exact h.readMove (yieldStep_cases taken)
  | ends read =>
    obtain ⟨search, stage, -, rfl⟩ := endStep_cases taken
    exact h.ends stage

theorem ordered_initially (initial : (orgEventCatchup settings).initial state)
    : Ordered state := by
  obtain ⟨pending, events, -, -, reads, -, -⟩ := initial
  constructor <;> simp [pending, events, reads]

theorem ordered_of_reachable (h : (orgEventCatchup settings).Reachable state)
    : Ordered state :=
  System.Reachable.invariant (fun _ => ordered_initially) (fun _ _ _ => Ordered.step) h

-- What is owed

def owed (settings : CatchupSettings) (state : CatchupState) : Set OrgEventRow :=
  { event | event ∈ state.events
      ∧ eventTargetsParticipant event settings.participantId = true
      ∧ ∃ first, state.positions.committed.getLast? = some first
        ∧ textLt first (recordPosition event) }

def settled (settings : CatchupSettings) (state : CatchupState) : Set OrgEventRow :=
  { event | event ∈ state.returned
      ∨ eventIsExpired settings.dateOf event state.clock = true }

def Covers (settings : CatchupSettings) (state : CatchupState) (cursor : String) : Prop :=
  Delivered textLt (fun event => some (recordPosition event)) cursor (owed settings state)
    (settled settings state)

variable {cursor : String}

theorem behind_iff
    : Behind textLt (fun event => some (recordPosition event)) cursor event
      ↔ ¬ textLt cursor (recordPosition event) := by
  simp [Behind]

theorem eventIsExpired_mono {dateOf : String → Option Int} {now later : Int} (order : now ≤ later)
    (h : eventIsExpired dateOf event now = true)
    : eventIsExpired dateOf event later = true := by
  unfold eventIsExpired at h ⊢
  split at h
  · cases h
  rename_i expiresAt _
  simp only [Bool.and_eq_true, decide_eq_true_eq] at h ⊢
  refine ⟨h.1, ?_⟩
  cases date : dateOf expiresAt with
  | none =>
    rw [date] at h
    cases h.2
  | some at' =>
    simp only [date, Option.map_some, Option.getD_some, decide_eq_true_eq] at h ⊢
    omega

/-- What a search has yielded of the events it owes, past its cursor, it has collected
unless they had expired.
-/
structure SearchKept (settings : CatchupSettings) (clock : Int) (search : CatchupSearch)
    : Prop where
  table : search.began = none → search.results = []
  kept : search.resolved.since.getD "" = "" → ∀ event ∈ search.yielded, event.Stamped
    → eventTargetsParticipant event settings.participantId = true
    → textLt search.resolved.after (recordPosition event)
    → withEventPosition event ∈ search.results
      ∨ eventIsExpired settings.dateOf event clock = true

theorem SearchKept.later {clock later : Int} (h : SearchKept settings clock search)
    (order : clock ≤ later)
    : SearchKept settings later search := by
  refine ⟨h.table, ?_⟩
  intro unbounded event member stamped targets past
  rcases h.kept unbounded event member stamped targets past with listed | expired
  · exact Or.inl listed
  · exact Or.inr (eventIsExpired_mono order expired)

theorem SearchKept.yield {clock : Int} (h : SearchKept settings clock search)
    (began : search.began.isSome) (event : OrgEventRow)
    : SearchKept settings clock { search with
        yielded := event :: search.yielded
        results := collectRow settings.dateOf
          (search.resolved.opts settings.participantId clock) search.results event } := by
  constructor
  · intro missing
    have gone : search.began = none := missing
    rw [gone] at began
    cases began
  intro unbounded other member stamped targets past
  have grown (row : PositionedEvent) (old : row ∈ search.results)
      : row ∈ collectRow settings.dateOf
          (search.resolved.opts settings.participantId clock) search.results event := by
    unfold collectRow
    split
    · exact List.mem_append_left _ old
    · exact old
  rcases List.mem_cons.mp member with rfl | earlier
  · by_cases expired : eventIsExpired settings.dateOf other clock = true
    · exact Or.inr expired
    apply Or.inl
    obtain ⟨createdAt, stamp, nonempty, -⟩ := stamped
    have later : ¬ comparePosition (recordPosition other) search.resolved.after ≤ 0 :=
      fun small => comparePosition_le_zero.mp small past
    have eligible : isCatchupEligible settings.dateOf other
        (search.resolved.opts settings.participantId clock) = true := by
      simp [isCatchupEligible, ResolvedAfter.opts, stamp, nonempty, unbounded, later, targets,
        expired]
    simp [collectRow, eligible]
  · rcases h.kept unbounded other earlier stamped targets past with listed | expired
    · exact Or.inl (grown _ listed)
    · exact Or.inr expired

@[simp] def PositionStage.work : PositionStage → Option PositionWork
  | .queued _ work | .putting _ work _ _ | .rereading _ work _ => some work
  | .idle | .peeking | .answered _ => none

def Promised (served : List String) : PositionWork → Prop
  | .advance position => position ∈ served
  | .ensure initial => IsCursor initial

variable {work : PositionWork}

theorem Promised.mono {served more : List String} (h : Promised served work)
    (grown : ∀ cursor ∈ served, cursor ∈ more)
    : Promised more work := by
  cases work with
  | advance position => exact grown position h
  | ensure initial => exact h

structure Caught (settings : CatchupSettings) (state : CatchupState) : Prop where
  forward : Forward state.positions
  cursors : ∀ cursor, state.Reached cursor → IsCursor cursor
  stored : state.served ≠ [] → state.positions.committed ≠ []
  acknowledged : ∀ cursor ∈ state.positions.committed,
    cursor ∈ state.served ∨ state.positions.committed.getLast? = some cursor
  promised : ∀ call work, (state.positions.call call).work = some work
    → Promised state.served work
  searching : ∀ read search, state.read read = .searching search
    → SearchKept settings state.clock search
  covered : ∀ cursor, state.Reached cursor → Covers settings state cursor

-- Steps that commit no position

theorem Caught.grows (h : Caught settings before) (positions : after.positions = before.positions)
    (events : after.events = before.events) (served : after.served = before.served)
    (clock : before.clock ≤ after.clock)
    (returned : ∀ event ∈ before.returned, event ∈ after.returned)
    (searching : ∀ read search, after.read read = .searching search
      → before.read read = .searching search ∨ SearchKept settings after.clock search)
    : Caught settings after := by
  have reached (cursor : String) : after.Reached cursor ↔ before.Reached cursor := by
    simp only [CatchupState.Reached, positions, served]
  constructor
  · rw [positions]
    exact h.forward
  · intro cursor now
    exact h.cursors cursor ((reached cursor).mp now)
  · rw [positions, served]
    exact h.stored
  · rw [positions, served]
    exact h.acknowledged
  · rw [positions, served]
    exact h.promised
  · intro read search now
    rcases searching read search now with same | kept
    · exact (h.searching read search same).later clock
    · exact kept
  · intro cursor now
    apply (h.covered cursor ((reached cursor).mp now)).mono
    · intro event member
      simpa only [owed, positions, events] using member
    · intro event delivered
      exact delivered.imp (returned event) (eventIsExpired_mono clock)

theorem Caught.reads (h : Caught settings before) {stage : ReadStage}
    (moved : after.read = (before.goto read stage).read)
    (positions : after.positions = before.positions) (events : after.events = before.events)
    (served : after.served = before.served) (clock : after.clock = before.clock)
    (returned : ∀ event ∈ before.returned, event ∈ after.returned)
    (kept : ∀ search, stage = .searching search → SearchKept settings before.clock search)
    : Caught settings after := by
  refine h.grows positions events served (le_of_eq clock.symm) returned ?_
  intro other search now
  rw [moved, catchup_goto_read] at now
  split at now
  · rw [clock]
    exact Or.inr (kept search now)
  · exact Or.inl now

theorem Caught.commits (h : Caught settings before) (taken : commitStep before writer = some after)
    (ahead : ∀ event, before.stamped writer = some event
      → ∀ cursor ∈ before.served, textLt cursor (recordPosition event))
    : Caught settings after := by
  obtain ⟨event, stamp, -, rfl⟩ := commitStep_cases taken
  refine ⟨h.forward, h.cursors, h.stored, h.acknowledged, h.promised, h.searching, ?_⟩
  intro cursor reached other member behind
  obtain ⟨stored, targets, first, oldest, past⟩ := member
  rcases List.mem_cons.mp stored with rfl | old
  · have free : textLt cursor (recordPosition other) := by
      rcases reached with committed | served
      · rcases h.acknowledged cursor committed with served | initial
        · exact ahead other stamp cursor served
        · obtain rfl := Option.some.inj (initial.symm.trans oldest)
          exact past
      · exact ahead other stamp cursor served
    exact absurd free (behind_iff.mp behind)
  · exact h.covered cursor reached other ⟨old, targets, first, oldest, past⟩ behind

theorem Caught.serves (h : Caught settings state) {cursors : List String}
    (stored : cursors ≠ [] → state.positions.committed ≠ [])
    (wellFormed : ∀ cursor ∈ cursors, IsCursor cursor)
    (covered : ∀ cursor ∈ cursors, Covers settings state cursor)
    : Caught settings { state with served := cursors ++ state.served } := by
  have split (cursor : String)
      (now : ({ state with served := cursors ++ state.served } : CatchupState).Reached cursor)
      : cursor ∈ cursors ∨ state.Reached cursor := by
    rcases now with committed | served
    · exact Or.inr (Or.inl committed)
    · exact (List.mem_append.mp served).imp id Or.inr
  constructor
  · exact h.forward
  · intro cursor now
    exact (split cursor now).elim (wellFormed cursor) (h.cursors cursor)
  · intro nonempty
    cases cursors with
    | nil => exact h.stored nonempty
    | cons first rest => exact stored (by simp)
  · intro cursor member
    exact (h.acknowledged cursor member).imp (List.mem_append_right _) id
  · intro call work asked
    exact (h.promised call work asked).mono (fun _ => List.mem_append_right _)
  · exact h.searching
  · intro cursor now
    exact (split cursor now).elim (covered cursor) (h.covered cursor)

/-- The page of a complete search in sequence covers up to its next cursor, when no event
committed since the search began lies on the page's stretch.
-/
theorem page_covers (h : Caught settings state) (ordered : Ordered state)
    (stage : state.read read = .searching search) (complete : search.complete = true)
    (sequence : state.InSequence search)
    (onTime : ∀ event ∈ state.events, event ∉ search.began.getD []
      → textLt search.resolved.after (recordPosition event)
      → textLt search.page.nextAfter (recordPosition event))
    (within : ¬ textLt search.page.nextAfter cursor)
    : ∀ event ∈ owed settings state, ¬ textLt cursor (recordPosition event)
      → event ∈ search.page.page.map PositionedEvent.event
        ∨ event ∈ settled settings state := by
  intro event member behind
  obtain ⟨stored, targets, floor⟩ := member
  have kept := h.searching read search stage
  have strict := (ordered.searching read search stage).collected.strict
  by_cases past : textLt search.resolved.after (recordPosition event)
  · have notAhead : ¬ textLt search.page.nextAfter (recordPosition event) := by
      intro ahead
      rcases textLt_trichotomy cursor search.page.nextAfter with before | rfl | after
      · exact behind (textLt_trans before ahead)
      · exact behind ahead
      · exact within after
    have began : event ∈ search.began.getD [] := by
      by_contra late
      exact notAhead (onTime event stored late past)
    have stamped := ordered.stamped event stored
    obtain ⟨seek, seekTs, notBefore⟩ :=
      seek_keeps (h.cursors _ sequence.1) sequence.2 stamped past
    have sought : seeks search.resolved event = true := by
      simp [seeks, seekTs, notBefore]
    have yielded : event ∈ search.yielded := by
      have checked := List.all_eq_true.mp complete event began
      simpa [sought] using checked
    rcases kept.kept sequence.2 event yielded stamped targets past with listed | expired
    · have page := mem_pageAfter strict
        (parsePageSize_pos search.resolved.limit) (mem_sortCollected.mpr listed) past notAhead
      exact Or.inl (List.mem_map.mpr ⟨_, page, rfl⟩)
    · exact Or.inr (Or.inr expired)
  · exact Or.inr (h.covered _ sequence.1 event ⟨stored, targets, floor⟩ (behind_iff.mpr past))

theorem page_cursors (h : Caught settings state) (ordered : Ordered state)
    (stage : state.read read = .searching search) (sequence : state.InSequence search)
    (member : cursor ∈ search.page.nextAfter :: search.page.page.map PositionedEvent.position)
    : IsCursor cursor ∧ ¬ textLt search.page.nextAfter cursor := by
  have collected := (ordered.searching read search stage).collected
  have listed (row : PositionedEvent) (onPage : row ∈ search.page.page)
      : IsCursor row.position := by
    have source := mem_sortCollected.mp ((pageAfter_sublist _ _).subset onPage)
    obtain ⟨positioned, stamped⟩ := collected.positioned row source
    rw [positioned]
    exact stamped.isCursor
  rcases List.mem_cons.mp member with rfl | onPage
  · refine ⟨?_, textLt_irrefl _⟩
    have next : search.page.nextAfter = (search.page.page.getLast?.map
        PositionedEvent.position).getD search.resolved.after := rfl
    cases last : search.page.page.getLast? with
    | none =>
      rw [next, last]
      exact h.cursors _ sequence.1
    | some row =>
      rw [next, last]
      exact listed row (List.mem_of_getLast? last)
  · obtain ⟨row, present, rfl⟩ := List.mem_map.mp onPage
    exact ⟨listed row present, page_within collected.strict present⟩

theorem Caught.ends (h : Caught settings before) (ordered : Ordered before)
    (stage : before.read read = .searching search) (complete : search.complete = true)
    (onTime : before.InSequence search → ∀ event ∈ before.events,
      event ∉ search.began.getD [] → textLt search.resolved.after (recordPosition event)
      → textLt search.page.nextAfter (recordPosition event))
    : Caught settings (before.ended read search) := by
  have listed : Caught settings
      { before.goto read (.answered search.answer) with
        returned := search.page.page.map PositionedEvent.event ++ before.returned } :=
    h.reads rfl rfl rfl rfl rfl (fun _ => List.mem_append_right _) (by simp)
  unfold CatchupState.ended
  by_cases sequence : before.InSequence search
  · rw [if_pos sequence]
    apply listed.serves
    · intro _
      rcases sequence.1 with committed | served
      · exact List.ne_nil_of_mem committed
      · exact h.stored (List.ne_nil_of_mem served)
    · intro cursor member
      exact (page_cursors h ordered stage sequence member).1
    · intro cursor member event isOwed behind
      have within := (page_cursors h ordered stage sequence member).2
      rcases page_covers h ordered stage complete sequence (onTime sequence) within event isOwed
        (behind_iff.mp behind) with onPage | settled
      · exact Or.inl (List.mem_append_left _ onPage)
      · exact settled.imp (List.mem_append_right _) id
  · rw [if_neg sequence]
    exact listed

-- Steps of the read position

variable {existing : Option String} {position : String}

theorem afterRead_put (h : work.afterRead existing = .put position)
    : work = .advance position ∨ work = .ensure position ∧ existing = none := by
  cases work with
  | ensure initial =>
    cases existing with
    | none => exact Or.inr ⟨by simpa [PositionWork.afterRead] using h, rfl⟩
    | some current => simp [PositionWork.afterRead] at h
  | advance wanted =>
    simp only [PositionWork.afterRead] at h
    split at h
    · cases h
    · exact Or.inl (by simpa using h)

theorem promised_goto {state : PositionState} {served : List String}
    (promised : ∀ call work, (state.call call).work = some work → Promised served work)
    (call : Nat) (stage : PositionStage)
    (kept : ∀ work, stage.work = some work → Promised served work)
    : ∀ other work, (if other = call then stage else state.call other).work = some work
      → Promised served work := by
  intro other work asked
  split at asked
  · exact kept work asked
  · exact promised other work asked

theorem Caught.lands (h : Caught settings state) (now : String)
    (putting : state.positions.call call = .putting worker work existing position)
    (undisturbed : storedPosition state.positions.row = existing)
    : Caught settings
        { state with positions := state.positions.commit settings.key position now } := by
  have forward : Forward (state.positions.commit settings.key position now) :=
    h.forward.written settings.key putting true now (fun _ => undisturbed)
  have asked : (state.positions.call call).work = some work := by rw [putting]; rfl
  have promise := h.promised call work asked
  have source : position ∈ state.served
      ∨ IsCursor position ∧ state.positions.committed = [] ∧ state.served = [] := by
    rcases afterRead_put (h.forward.founded call worker work existing position putting)
      with rfl | ⟨rfl, rfl⟩
    · exact Or.inl promise
    have empty : state.positions.committed = [] :=
      List.head?_eq_none_iff.mp (h.forward.latest.symm.trans undisturbed)
    refine Or.inr ⟨promise, empty, ?_⟩
    by_contra nonempty
    exact h.stored nonempty empty
  rcases source with served | ⟨wellFormed, empty, unserved⟩
  · have nonempty : state.positions.committed ≠ [] := h.stored (List.ne_nil_of_mem served)
    have oldest : (position :: state.positions.committed).getLast?
        = state.positions.committed.getLast? := List.getLast?_cons_of_ne_nil nonempty
    have reached (cursor : String)
        (after : cursor ∈ position :: state.positions.committed ∨ cursor ∈ state.served)
        : state.Reached cursor := by
      rcases after with member | old
      · rcases List.mem_cons.mp member with rfl | old
        · exact Or.inr served
        · exact Or.inl old
      · exact Or.inr old
    constructor
    · exact forward
    · intro cursor after
      exact h.cursors cursor (reached cursor after)
    · exact fun _ => List.cons_ne_nil _ _
    · intro cursor member
      rcases List.mem_cons.mp member with rfl | old
      · exact Or.inl served
      · exact (h.acknowledged cursor old).imp id oldest.trans
    · exact h.promised
    · exact h.searching
    · intro cursor after
      apply (h.covered cursor (reached cursor after)).mono
      · intro event member
        obtain ⟨stored, targets, first, last, past⟩ := member
        exact ⟨stored, targets, first, oldest.symm.trans last, past⟩
      · exact fun _ delivered => delivered
  · have only : (state.positions.commit settings.key position now).committed = [position] := by
      simp [PositionState.commit, empty]
    have reached (cursor : String)
        (after : ({ state with
          positions := state.positions.commit settings.key position now }
            : CatchupState).Reached cursor)
        : cursor = position := by
      rcases after with member | served
      · exact List.mem_singleton.mp (only ▸ member)
      · rw [show state.served = [] from unserved] at served
        cases served
    constructor
    · exact forward
    · intro cursor after
      exact reached cursor after ▸ wellFormed
    · intro _
      simp [only]
    · intro cursor member
      refine Or.inr ?_
      rw [only] at member ⊢
      rw [List.mem_singleton.mp member]
      rfl
    · exact h.promised
    · exact h.searching
    · intro cursor after event member behind
      obtain ⟨-, -, first, last, past⟩ := member
      rw [only] at last
      cases last
      rw [reached cursor after] at behind
      exact absurd past (behind_iff.mp behind)

theorem Caught.calls (h : Caught settings before) {positions : PositionState}
    (forward : Forward positions) (committed : positions.committed = before.positions.committed)
    (promised : ∀ call work, (positions.call call).work = some work → Promised before.served work)
    : Caught settings { before with positions } := by
  have reached (cursor : String)
      : ({ before with positions } : CatchupState).Reached cursor ↔ before.Reached cursor := by
    simp only [CatchupState.Reached, committed]
  constructor
  · exact forward
  · intro cursor now
    exact h.cursors cursor ((reached cursor).mp now)
  · rw [committed]
    exact h.stored
  · rw [committed]
    exact h.acknowledged
  · exact promised
  · exact h.searching
  · intro cursor now
    apply (h.covered cursor ((reached cursor).mp now)).mono
    · intro event member
      simpa only [owed, committed] using member
    · exact fun _ delivered => delivered

theorem Caught.written (h : Caught settings state) (landed : Bool) (now : String)
    (putting : state.positions.call call = .putting worker work existing position)
    (undisturbed : landed = true → storedPosition state.positions.row = existing)
    : Caught settings
        { state with positions := state.positions.written settings.key landed position now } := by
  cases landed with
  | false => exact h
  | true => exact h.lands now putting (undisturbed rfl)

theorem Caught.positionMove {label : PositionLabel} (h : Caught settings before)
    (taken : positionMove settings before label = some after)
    (undisturbed : Undisturbed before.positions label)
    (asked : ∀ work, label.work = some work → Promised before.served work)
    : Caught settings after := by
  obtain ⟨positions, moved, rfl⟩ := Option.map_eq_some_iff.mp taken
  have forward := h.forward.step undisturbed moved
  cases positionStep_cases moved with
  | starts label call stage idle quiet =>
    apply h.calls forward rfl
    simp only [goto_call]
    apply promised_goto h.promised
    rcases quiet with rfl | ⟨answer, rfl⟩ <;> simp
  | waits label call worker work idle on starts =>
    apply h.calls forward rfl
    simp only [enqueue_call]
    apply promised_goto h.promised
    intro other same
    cases same
    exact asked work starts
  | peeks call readable answer peeking =>
    apply h.calls forward rfl
    simp only [goto_call]
    exact promised_goto h.promised call _ (by simp)
  | finds call worker work readable answer queued turn =>
    apply h.calls forward rfl
    simp only [settle_call]
    exact promised_goto h.promised call _ (by simp)
  | decides call worker work readable position queued turn founded =>
    apply h.calls forward rfl
    simp only [goto_call]
    apply promised_goto h.promised
    intro other same
    cases same
    exact h.promised call work (by rw [queued]; rfl)
  | puts call worker work existing position now landed putting =>
    have stored := h.written landed now putting (fun lands => by
      subst lands
      exact undisturbed worker work existing position putting)
    apply stored.calls forward rfl
    simp only [settle_call]
    exact promised_goto stored.promised call _ (by simp)
  | rejects call worker work existing position now landed putting =>
    have stored := h.written landed now putting (fun lands => by
      subst lands
      exact undisturbed worker work existing position putting)
    apply stored.calls forward rfl
    simp only [goto_call]
    apply promised_goto stored.promised
    intro other same
    cases same
    exact h.promised call work (by rw [putting]; rfl)
  | rereads call worker work existing readable answer rereading =>
    apply h.calls forward rfl
    simp only [settle_call]
    exact promised_goto h.promised call _ (by simp)

-- Runs on time

/-- The steps of a run on time: an acknowledged position is a cursor served, an event is
committed ahead of every cursor served, none committed since a search in sequence began
lies on the stretch of its page, and no put of the read position is disturbed.
-/
def OnTime (state : CatchupState) : CatchupLabel → Prop
  | .ack _ _ _ position => position ∈ state.served
  | .commit writer =>
    ∀ event, state.stamped writer = some event
      → ∀ cursor ∈ state.served, textLt cursor (recordPosition event)
  | .ends read =>
    ∀ search, state.read read = .searching search → state.InSequence search
      → ∀ event ∈ state.events, event ∉ search.began.getD []
      → textLt search.resolved.after (recordPosition event)
      → textLt search.page.nextAfter (recordPosition event)
  | .putPosition call now landed resolves =>
    Undisturbed state.positions (.put call now landed resolves)
  | _ => True

def onTimeCheck (state : CatchupState) : CatchupLabel → Bool
  | .ack _ _ _ position => decide (position ∈ state.served)
  | .commit writer =>
    match state.stamped writer with
    | some event => state.served.all fun cursor => decide (textLt cursor (recordPosition event))
    | none => true
  | .ends read =>
    match state.read read with
    | .searching search => state.events.all fun event =>
      decide (event ∈ search.began.getD [])
        || !decide (textLt search.resolved.after (recordPosition event))
        || decide (textLt search.page.nextAfter (recordPosition event))
    | _ => true
  | .putPosition call _ _ _ =>
    match state.positions.call call with
    | .putting _ _ existing _ => decide (storedPosition state.positions.row = existing)
    | _ => true
  | _ => true

theorem onTime_of_check (h : onTimeCheck state label = true)
    : OnTime state label := by
  cases label with
  | ack call worker table position =>
    have member : position ∈ state.served := by
      simpa only [onTimeCheck, decide_eq_true_eq] using h
    exact member
  | commit writer =>
    intro event stamp cursor member
    simp only [onTimeCheck, stamp, List.all_eq_true, decide_eq_true_eq] at h
    exact h cursor member
  | ends read =>
    intro search stage _ event member late past
    simp only [onTimeCheck, stage, List.all_eq_true, Bool.or_eq_true, Bool.not_eq_true',
      decide_eq_true_eq, decide_eq_false_iff_not] at h
    exact ((h event member).resolve_left (fun early => early.elim late (fun ahead => ahead past)))
  | putPosition call now landed resolves =>
    cases landed with
    | false => trivial
    | true =>
      intro worker work existing position putting
      simpa only [onTimeCheck, putting, decide_eq_true_eq] using h
  | tick elapsed => trivial
  | stamp writer id targetIds expiresAt => trivial
  | readPosition call readable => trivial
  | rereadPosition call readable => trivial
  | get read after since limit => trivial
  | resolve read table readable call worker => trivial
  | ensured read => trivial
  | search read table => trivial
  | yields read event => trivial

theorem isCursor_initialPosition {now backfillMs : Int} {initial : String}
    (h : initialPosition now backfillMs = some initial)
    : IsCursor initial := by
  obtain ⟨iso, text, rfl⟩ := Option.map_eq_some_iff.mp h
  obtain ⟨nonempty, clear⟩ := clear_toISOString text
  exact ⟨iso, "", by simp [positionAfterTimestamp], nonempty, clear⟩

theorem Caught.readMove (h : Caught settings before) (move : ReadMove settings before read after)
    : Caught settings after := by
  cases move with
  | turns stage plain unanswered =>
    exact h.reads rfl rfl rfl rfl rfl (fun _ => id)
      (fun search now => absurd now (plain search))
  | ensures stage plain unanswered call worker table initial now floor after moved =>
    have turned : Caught settings (before.goto read stage) :=
      h.reads rfl rfl rfl rfl rfl (fun _ => id) (fun search now => absurd now (plain search))
    refine turned.positionMove moved trivial ?_
    intro work asked
    cases asked
    exact isCursor_initialPosition floor
  | begins resolved began stored =>
    refine h.reads rfl rfl rfl rfl rfl (fun _ => id) ?_
    intro search now
    cases now
    exact ⟨fun _ => rfl, by simp⟩
  | yields search event stage began stored fresh =>
    refine h.reads rfl rfl rfl rfl rfl (fun _ => id) ?_
    intro next now
    cases now
    exact (h.searching read search stage).yield began event

theorem Caught.step (h : Caught settings before) (ordered : Ordered before)
    (onTime : OnTime before label) (taken : catchupStep settings before label = some after)
    : Caught settings after := by
  cases label with
  | tick elapsed =>
    simp only [catchupStep, Option.ite_none_right_eq_some, Option.some.injEq] at taken
    obtain ⟨forwards, rfl⟩ := taken
    exact h.grows rfl rfl rfl (by simpa using forwards) (fun _ => id)
      (fun _ _ now => Or.inl now)
  | stamp writer id targetIds expiresAt =>
    simp only [catchupStep, stampStep] at taken
    split at taken
    · obtain ⟨createdAt, -, rfl⟩ := Option.map_eq_some_iff.mp taken
      exact h.grows rfl rfl rfl le_rfl (fun _ present => present)
        (fun _ _ now => Or.inl now)
    · cases taken
  | commit writer => exact h.commits taken onTime
  | ack call worker table position =>
    simp only [catchupStep, Option.ite_none_right_eq_some] at taken
    refine h.positionMove taken.2 trivial ?_
    intro work asked
    cases asked
    exact onTime
  | readPosition call readable =>
    exact h.positionMove taken trivial (by simp [PositionLabel.work])
  | putPosition call now landed resolves =>
    exact h.positionMove taken onTime (by simp [PositionLabel.work])
  | rereadPosition call readable =>
    exact h.positionMove taken trivial (by simp [PositionLabel.work])
  | get read after since limit => exact h.readMove (getStep_cases taken)
  | resolve read table readable call worker => exact h.readMove (resolveStep_cases taken)
  | ensured read => exact h.readMove (ensuredStep_cases settings taken)
  | search read table => exact h.readMove (searchStep_cases settings taken)
  | yields read event => exact h.readMove (yieldStep_cases taken)
  | ends read =>
    obtain ⟨search, stage, complete, rfl⟩ := endStep_cases taken
    exact h.ends ordered stage complete (onTime search stage)

theorem caught_initially (initial : (orgEventCatchup settings).initial state)
    : Caught settings state := by
  obtain ⟨-, -, positions, row, reads, -, served⟩ := initial
  have committed : state.positions.committed = [] := by
    rw [positions.1, row]
    rfl
  have unreached (cursor : String) : ¬ state.Reached cursor := by
    simp [CatchupState.Reached, committed, served]
  constructor
  · exact forward_initially positions
  · exact fun cursor now => absurd now (unreached cursor)
  · exact fun nonempty => absurd served nonempty
  · simp [committed]
  · intro call work asked
    rw [positions.2.2 call] at asked
    cases asked
  · simp [reads]
  · exact fun cursor now => absurd now (unreached cursor)

/-- Pages list events in strictly increasing position order in every run. In a run on time,
every event that targets the participant, past the first position stored and not past a
position stored since, has been listed on a page or has expired.
-/
theorem catchup_loses_nothing (settings : CatchupSettings) (state : CatchupState)
    (h : (orgEventCatchup settings).Reachable state)
    : (∀ read answer, state.read read = .answered answer
        → answer.events.Pairwise (fun a b => textLt a.position b.position))
      ∧ ((orgEventCatchup settings).ReachableUnder OnTime state
        → ∀ position ∈ state.positions.committed, ∀ event ∈ owed settings state,
          ¬ textLt position (recordPosition event)
          → event ∈ state.returned
            ∨ eventIsExpired settings.dateOf event state.clock = true) := by
  refine ⟨(ordered_of_reachable h).answered, ?_⟩
  intro onTime
  have initially (start : CatchupState) (initial : (orgEventCatchup settings).initial start)
      : Ordered start ∧ Caught settings start :=
    ⟨ordered_initially initial, caught_initially initial⟩
  have kept (before : CatchupState) (label : CatchupLabel) (after : CatchupState)
      (holds : Ordered before ∧ Caught settings before) (allowed : OnTime before label)
      (taken : catchupStep settings before label = some after)
      : Ordered after ∧ Caught settings after :=
    ⟨holds.1.step taken, holds.2.step holds.1 allowed taken⟩
  have both := onTime.invariant initially kept
  intro position committed event isOwed behind
  exact both.2.covered position (Or.inl committed) event isOwed (behind_iff.mpr behind)

-- Runs

def flintCatchup : CatchupSettings where
  dateOf _ := none
  participantId := "flint"
  backfillMs := 0

def freshCatchup : CatchupState where
  clock := 1767225600000
  stamped _ := none
  events := []
  positions := noReadPosition
  read _ := .idle
  returned := []
  served := []

theorem freshCatchup_initial : (orgEventCatchup flintCatchup).initial freshCatchup :=
  ⟨fun _ => rfl, rfl, ⟨rfl, fun _ => rfl, fun _ => rfl⟩, rfl, fun _ => rfl, rfl, rfl⟩

def earlier : OrgEventRow where
  id := "earlier"
  createdAt := some "2026-01-01T00:00:00.001Z"
  targetIds := some ["flint"]
  expiresAt := none

def later : OrgEventRow where
  id := "later"
  createdAt := some "2026-01-01T00:00:00.002Z"
  targetIds := none
  expiresAt := none

def firstRead : List CatchupLabel := [
  .get 0 none none none, .resolve 0 true true 0 0, .readPosition 0 true,
  .putPosition 0 "2026-01-01T00:00:00.000Z" true true, .ensured 0, .search 0 true, .ends 0 ]

def stampsBoth : List CatchupLabel := [
  .tick 1, .stamp 0 "earlier" (some ["flint"]) none, .tick 1, .stamp 1 "later" none none ]

def readsPage (events : List OrgEventRow) : List CatchupLabel :=
  [.get 1 none none none, .resolve 1 true true 1 0, .search 1 true]
    ++ events.map (.yields 1 ·) ++ [.ends 1]

def acknowledges (position : String) : List CatchupLabel := [
  .ack 2 0 true position, .readPosition 2 true,
  .putPosition 2 "2026-01-01T00:00:00.003Z" true true ]

def LosesEarlier (labels : List CatchupLabel) : Prop :=
  ∃ state, (orgEventCatchup flintCatchup).run freshCatchup labels = some state
    ∧ ∃ position ∈ state.positions.committed, earlier ∈ owed flintCatchup state
      ∧ ¬ textLt position (recordPosition earlier) ∧ earlier ∉ state.returned

theorem losesEarlier_of_final {labels : List CatchupLabel} (latest first : String)
    (events returned : List OrgEventRow)
    (final : ((orgEventCatchup flintCatchup).run freshCatchup labels).map
      (fun state => (state.positions.committed, state.events, state.returned))
      = some ([latest, first], events, returned))
    (stored : earlier ∈ events) (past : textLt first (recordPosition earlier))
    (behind : ¬ textLt latest (recordPosition earlier)) (unlisted : earlier ∉ returned)
    : LosesEarlier labels := by
  obtain ⟨state, executed, read⟩ := Option.map_eq_some_iff.mp final
  obtain ⟨committed, rest⟩ := Prod.mk.inj read
  obtain ⟨storedEvents, listed⟩ := Prod.mk.inj rest
  refine ⟨state, executed, latest, ?_, ?_, behind, ?_⟩
  · rw [committed]
    exact List.mem_cons_self
  · refine ⟨?_, rfl, first, ?_, past⟩
    · rw [storedEvents]
      exact stored
    · rw [committed]
      rfl
  · rw [listed]
    exact unlisted

/-- An event committed after a page has served a later one is passed by the acknowledgement
of that page, and so is an event ahead of which the participant acknowledges.
-/
theorem late_commit_and_ack_ahead_lose
    : LosesEarlier (firstRead ++ stampsBoth ++ [.commit 1] ++ readsPage [later]
        ++ [.commit 0] ++ acknowledges (recordPosition later))
      ∧ LosesEarlier (firstRead ++ stampsBoth ++ [.commit 0]
        ++ acknowledges (recordPosition later)) := by
  constructor
  · apply losesEarlier_of_final (recordPosition later) "2026-01-01T00:00:00.000Z\t"
      [earlier, later] [later]
    all_goals decide +kernel
  · apply losesEarlier_of_final (recordPosition later) "2026-01-01T00:00:00.000Z\t"
      [earlier] []
    all_goals decide +kernel

def readsBoth : List CatchupLabel :=
  firstRead ++ stampsBoth ++ [.commit 1, .commit 0] ++ readsPage [later, earlier]
    ++ acknowledges (recordPosition later)

/-- The stored position has passed both events, and the page has listed them. -/
theorem both_events_listed
    : ∃ state, (orgEventCatchup flintCatchup).Reachable state
      ∧ recordPosition later ∈ state.positions.committed
      ∧ earlier ∈ owed flintCatchup state
      ∧ (earlier ∈ state.returned
        ∨ eventIsExpired flintCatchup.dateOf earlier state.clock = true) := by
  have final
      : ((orgEventCatchup flintCatchup).runUnder onTimeCheck freshCatchup readsBoth).map
          (fun state => (state.positions.committed, state.events))
        = some ([recordPosition later, "2026-01-01T00:00:00.000Z\t"], [earlier, later]) := by
    decide +kernel
  obtain ⟨state, executed, read⟩ := Option.map_eq_some_iff.mp final
  obtain ⟨committed, events⟩ := Prod.mk.inj read
  have run := System.reachesUnder_of_runUnder executed
  have onTime : (orgEventCatchup flintCatchup).ReachableUnder OnTime state :=
    ⟨freshCatchup, freshCatchup_initial, run.mono (fun _ _ => onTime_of_check)⟩
  have acknowledged : recordPosition later ∈ state.positions.committed := by
    rw [committed]
    exact List.mem_cons_self
  have isOwed : earlier ∈ owed flintCatchup state := by
    refine ⟨?_, rfl, "2026-01-01T00:00:00.000Z\t", ?_, by decide +kernel⟩
    · rw [events]
      exact List.mem_cons_self
    · rw [committed]
      rfl
  have covered := (catchup_loses_nothing flintCatchup state onTime.reachable).2 onTime
  exact ⟨state, onTime.reachable, acknowledged, isOwed,
    covered _ acknowledged earlier isOwed (by decide +kernel)⟩

end Flair.Catchup
