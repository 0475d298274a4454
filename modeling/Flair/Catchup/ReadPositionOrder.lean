import Flair.Catchup.ReadPositions

/-! When a read position never moves back: in runs whose gets do not fail over a stored
position and whose puts land over the position their call has read, which the queue of a
single worker secures.
-/

namespace Flair.Catchup

open Dynamic Transition

-- What one step does

@[simp] theorem goto_call (state : PositionState) (call other : Nat) (stage : PositionStage)
    : (state.goto call stage).call other
      = if other = call then stage else state.call other := by
  simp [PositionState.goto, Function.update_apply]

@[simp] theorem settle_call (state : PositionState) (call worker other : Nat)
    (answer : PositionAnswer)
    : (state.settle call worker answer).call other
      = if other = call then .answered answer else state.call other :=
  goto_call state call other _

@[simp] theorem enqueue_call (state : PositionState) (call worker other : Nat)
    (work : PositionWork)
    : (state.enqueue call worker work).call other
      = if other = call then .queued worker work else state.call other :=
  goto_call state call other _

def PositionLabel.worker : PositionLabel → Option Nat
  | .advance _ worker _ _ | .ensure _ worker _ _ => some worker
  | .read _ _ | .put _ _ _ _ | .reread _ _ => none

def PositionLabel.work : PositionLabel → Option PositionWork
  | .advance _ _ _ position => some (.advance position)
  | .ensure _ _ _ initial => some (.ensure initial)
  | .read _ _ | .put _ _ _ _ | .reread _ _ => none

def PositionState.written (state : PositionState) (key : ReadPositionKey)
    (landed : Bool) (position now : String)
    : PositionState :=
  if landed then state.commit key position now else state

inductive PositionMove (key : ReadPositionKey) (before : PositionState)
    : PositionLabel → PositionState → Prop where
  | starts (label : PositionLabel) (call : Nat) (stage : PositionStage)
      (idle : before.call call = .idle)
      (quiet : stage = .peeking ∨ ∃ answer, stage = .answered answer)
      : PositionMove key before label (before.goto call stage)
  | waits (label : PositionLabel) (call worker : Nat) (work : PositionWork)
      (idle : before.call call = .idle) (on : label.worker = some worker)
      (asked : label.work = some work)
      : PositionMove key before label (before.enqueue call worker work)
  | peeks (call : Nat) (readable : Bool) (answer : PositionAnswer)
      (peeking : before.call call = .peeking)
      : PositionMove key before (.read call readable) (before.goto call (.answered answer))
  | finds (call worker : Nat) (work : PositionWork) (readable : Bool)
      (answer : PositionAnswer) (queued : before.call call = .queued worker work)
      (turn : (before.tail worker).head? = some call)
      : PositionMove key before (.read call readable) (before.settle call worker answer)
  | decides (call worker : Nat) (work : PositionWork) (readable : Bool) (position : String)
      (queued : before.call call = .queued worker work)
      (turn : (before.tail worker).head? = some call)
      (founded : work.afterRead (readRow before readable) = .put position)
      : PositionMove key before (.read call readable)
          (before.goto call (.putting worker work (readRow before readable) position))
  | puts (call worker : Nat) (work : PositionWork) (existing : Option String)
      (position now : String) (landed : Bool)
      (putting : before.call call = .putting worker work existing position)
      : PositionMove key before (.put call now landed true)
          ((before.written key landed position now).settle call worker work.afterPut)
  | rejects (call worker : Nat) (work : PositionWork) (existing : Option String)
      (position now : String) (landed : Bool)
      (putting : before.call call = .putting worker work existing position)
      : PositionMove key before (.put call now landed false)
          ((before.written key landed position now).goto call
            (.rereading worker work existing))
  | rereads (call worker : Nat) (work : PositionWork) (existing : Option String)
      (readable : Bool) (answer : PositionAnswer)
      (rereading : before.call call = .rereading worker work existing)
      : PositionMove key before (.reread call readable) (before.settle call worker answer)

variable {key : ReadPositionKey} {state : PositionState} {call worker : Nat} {position : String}

theorem startAdvance_cases {table : Bool} (idle : state.call call = .idle)
    : PositionMove key state (.advance call worker table position)
        (startAdvance state call worker table position) := by
  unfold startAdvance
  split
  · split
    · exact .starts _ call _ idle (.inl rfl)
    · exact .starts _ call _ idle (.inr ⟨_, rfl⟩)
  · split
    · exact .waits _ call worker _ idle rfl rfl
    · exact .starts _ call _ idle (.inr ⟨_, rfl⟩)

theorem startEnsure_cases {table : Bool} {initial : String} (idle : state.call call = .idle)
    : PositionMove key state (.ensure call worker table initial)
        (startEnsure state call worker table initial) := by
  unfold startEnsure
  split
  · exact .waits _ call worker _ idle rfl rfl
  · exact .starts _ call _ idle (.inr ⟨_, rfl⟩)

variable {before after : PositionState}

theorem readStep_cases {readable : Bool} (taken : readStep before call readable = some after)
    : PositionMove key before (.read call readable) after := by
  unfold readStep at taken
  split at taken
  · rename_i peeking
    cases taken
    exact .peeks call readable _ peeking
  · rename_i worker work queued
    split at taken
    · rename_i turn
      split at taken
      · cases taken
        exact .finds call worker work readable _ queued turn
      · rename_i position founded
        cases taken
        exact .decides call worker work readable position queued turn founded
    · cases taken
  · cases taken

theorem putStep_cases {now : String} {landed resolves : Bool}
    (taken : putStep key before call now landed resolves = some after)
    : PositionMove key before (.put call now landed resolves) after := by
  unfold putStep at taken
  split at taken
  · rename_i worker work existing position putting
    cases resolves with
    | true =>
      cases taken
      exact .puts call worker work existing position now landed putting
    | false =>
      cases taken
      exact .rejects call worker work existing position now landed putting
  · cases taken

theorem rereadStep_cases {readable : Bool} (taken : rereadStep before call readable = some after)
    : PositionMove key before (.reread call readable) after := by
  unfold rereadStep at taken
  split at taken
  · rename_i worker work existing rereading
    cases taken
    exact .rereads call worker work existing readable _ rereading
  · cases taken

variable {label : PositionLabel}

theorem positionStep_cases (taken : positionStep key before label = some after)
    : PositionMove key before label after := by
  cases label with
  | advance call worker table position =>
    simp only [positionStep] at taken
    split at taken
    · rename_i idle
      cases taken
      exact startAdvance_cases idle
    · cases taken
  | ensure call worker table initial =>
    simp only [positionStep] at taken
    split at taken
    · rename_i idle
      cases taken
      exact startEnsure_cases idle
    · cases taken
  | read call readable => exact readStep_cases taken
  | put call now landed resolves => exact putStep_cases taken
  | reread call readable => exact rereadStep_cases taken

-- The committed positions

/-- Positions committed one after the other, the latest first, never move back. -/
def NeverMovesBack (committed : List String) : Prop :=
  committed.Pairwise (fun later earlier => ¬ textLt later earlier)

/-- The position in the row is the latest commit, the commits never move back, and every
put about to happen follows from what its call has read.
-/
structure Forward (state : PositionState) : Prop where
  latest : storedPosition state.row = state.committed.head?
  ordered : NeverMovesBack state.committed
  founded : ∀ call worker work existing position,
    state.call call = .putting worker work existing position
    → work.afterRead existing = .put position

theorem afterRead_forward {work : PositionWork} {current : String}
    (h : work.afterRead (some current) = .put position)
    : ¬ textLt position current := by
  cases work with
  | ensure initial => simp [PositionWork.afterRead] at h
  | advance wanted =>
    simp only [PositionWork.afterRead, Option.getD_some] at h
    split at h
    · cases h
    rename_i forward
    obtain rfl : wanted = position := by simpa using h
    rw [comparePosition_le_zero] at forward
    intro back
    rcases Decidable.not_and_iff_or_not.mp forward with empty | later
    · obtain rfl : current = "" := by simpa using empty
      simp [textLt, codeUnits] at back
    · exact textLt_asymm back (not_not.mp later)

theorem NeverMovesBack.push {committed : List String} (h : NeverMovesBack committed)
    (forward : ∀ current, committed.head? = some current → ¬ textLt position current)
    : NeverMovesBack (position :: committed) := by
  refine List.Pairwise.cons ?_ h
  intro earlier member
  cases committed with
  | nil => cases member
  | cons latest rest =>
    have first : ¬ textLt position latest := forward latest rfl
    rcases List.mem_cons.mp member with rfl | older
    · exact first
    have second : ¬ textLt latest earlier := List.rel_of_pairwise_cons h older
    intro back
    rcases textLt_trichotomy latest position with before | rfl | after
    · exact second (textLt_trans before back)
    · exact second back
    · exact first after

variable {stage : PositionStage}

theorem Forward.quiet (h : Forward state) (moved : Nat)
    (none : ∀ worker work existing position, stage ≠ .putting worker work existing position)
    : ∀ call worker work existing position,
      (if call = moved then stage else state.call call)
        = .putting worker work existing position
      → work.afterRead existing = .put position := by
  intro call worker work existing position now
  split at now
  · exact absurd now (none worker work existing position)
  · exact h.founded call worker work existing position now

theorem Forward.written (h : Forward state) (key : ReadPositionKey) {work : PositionWork}
    {existing : Option String} (putting : state.call call = .putting worker work existing position)
    (landed : Bool) (now : String)
    (undisturbed : landed = true → storedPosition state.row = existing)
    : Forward (state.written key landed position now) := by
  cases landed with
  | false => exact h
  | true =>
    refine ⟨?_, ?_, h.founded⟩
    · exact rowPosition_positionRow key position now
    apply h.ordered.push
    intro current latest
    have read : existing = some current :=
      (undisturbed rfl).symm.trans (h.latest.trans latest)
    exact afterRead_forward (read ▸ h.founded call worker work existing position putting)

/-- A put lands only over what its call has read: the position stored then, and nothing
where the get found none or threw.
-/
def Undisturbed (state : PositionState) : PositionLabel → Prop
  | .put call _ true _ =>
    ∀ worker work existing position,
      state.call call = .putting worker work existing position
      → storedPosition state.row = existing
  | _ => True

theorem Forward.step (h : Forward before) (undisturbed : Undisturbed before label)
    (taken : positionStep key before label = some after)
    : Forward after := by
  cases positionStep_cases taken with
  | starts label call stage idle quiet =>
    refine ⟨h.latest, h.ordered, ?_⟩
    simp only [goto_call]
    apply h.quiet
    rcases quiet with rfl | ⟨answer, rfl⟩ <;> simp
  | waits label call worker work idle on asked =>
    refine ⟨h.latest, h.ordered, ?_⟩
    simp only [enqueue_call]
    exact h.quiet call (by simp)
  | peeks call readable answer peeking =>
    refine ⟨h.latest, h.ordered, ?_⟩
    simp only [goto_call]
    exact h.quiet call (by simp)
  | finds call worker work readable answer queued turn =>
    refine ⟨h.latest, h.ordered, ?_⟩
    simp only [settle_call]
    exact h.quiet call (by simp)
  | decides call worker work readable position queued turn founded =>
    refine ⟨h.latest, h.ordered, ?_⟩
    intro other otherWorker otherWork existing otherPosition now
    rw [goto_call] at now
    split at now
    · cases now
      exact founded
    · exact h.founded other otherWorker otherWork existing otherPosition now
  | puts call worker work existing position now landed putting =>
    have stored := h.written key putting landed now
      (fun lands => by
        subst lands
        exact undisturbed worker work existing position putting)
    refine ⟨stored.latest, stored.ordered, ?_⟩
    simp only [settle_call]
    exact stored.quiet call (by simp)
  | rejects call worker work existing position now landed putting =>
    have stored := h.written key putting landed now
      (fun lands => by
        subst lands
        exact undisturbed worker work existing position putting)
    refine ⟨stored.latest, stored.ordered, ?_⟩
    simp only [goto_call]
    exact stored.quiet call (by simp)
  | rereads call worker work existing readable answer rereading =>
    refine ⟨h.latest, h.ordered, ?_⟩
    simp only [settle_call]
    exact h.quiet call (by simp)

theorem forward_initially (initial : (readPositions key).initial state)
    : Forward state := by
  obtain ⟨committed, -, idle⟩ := initial
  refine ⟨?_, ?_, ?_⟩
  · rw [committed]
    cases storedPosition state.row <;> rfl
  · rw [committed]
    cases storedPosition state.row with
    | none => exact List.Pairwise.nil
    | some position => exact List.pairwise_singleton _ position
  · intro call worker work existing position now
    rw [idle call] at now
    cases now

/-- In a run that disturbs no call, the committed positions never move back. -/
theorem committed_positions_forward (key : ReadPositionKey) (state : PositionState)
    (h : (readPositions key).ReachableUnder Undisturbed state)
    : NeverMovesBack state.committed := by
  have forward : Forward state := by
    refine System.ReachableUnder.invariant (fun _ => forward_initially) ?_ h
    intro before label after holds undisturbed taken
    exact holds.step undisturbed taken
  exact forward.ordered

-- One worker

def PositionStage.running : PositionStage → Option Nat
  | .putting worker _ _ _ | .rereading worker _ _ => some worker
  | .idle | .peeking | .queued _ _ | .answered _ => none

def OneWorker (worker : Nat) (state : PositionState) (label : PositionLabel) : Prop :=
  (∀ other, label.worker = some other → other = worker)
    ∧ ∀ call, label = .read call false → storedPosition state.row = none

/-- The queue of the worker serialises its calls: only the first has read, and what it has
read is still stored.
-/
structure Serial (worker : Nat) (state : PositionState) : Prop where
  own : ∀ call other work, state.call call = .queued other work → other = worker
  turn : ∀ call other, (state.call call).running = some other
    → other = worker ∧ (state.tail worker).head? = some call
  current : ∀ call other work existing position,
    state.call call = .putting other work existing position
    → storedPosition state.row = existing

theorem Serial.alone (h : Serial worker state) {other running : Nat}
    (turn : (state.tail worker).head? = some call)
    (reads : (state.call other).running = some running)
    : other = call := by
  have first := (h.turn other running reads).2
  exact Option.some.inj (first.symm.trans turn)

theorem Serial.settle {stored : PositionState} (h : Serial worker state)
    (turn : (state.tail worker).head? = some call) (same : stored.call = state.call)
    (answer : PositionAnswer)
    : Serial worker (stored.settle call worker answer) := by
  constructor
  · intro other otherWorker work now
    rw [settle_call, same] at now
    split at now
    · cases now
    · exact h.own other otherWorker work now
  · intro other running now
    rw [settle_call, same] at now
    split at now
    · cases now
    · rename_i different
      exact absurd (h.alone turn now) different
  · intro other otherWorker work existing position now
    rw [settle_call, same] at now
    split at now
    · cases now
    · rename_i different
      have reads : (state.call other).running = some otherWorker := by rw [now]; rfl
      exact absurd (h.alone turn reads) different

theorem Serial.goto {stored : PositionState} (h : Serial worker state)
    (turn : (state.tail worker).head? = some call) (same : stored.call = state.call)
    (waiting : stored.tail = state.tail) (running : stage.running = some worker)
    (current : ∀ other work existing position,
      stage = .putting other work existing position → storedPosition stored.row = existing)
    : Serial worker (stored.goto call stage) := by
  constructor
  · intro other otherWorker work now
    rw [goto_call, same] at now
    split at now
    · rw [now] at running
      cases running
    · exact h.own other otherWorker work now
  · intro other otherWorker now
    rw [goto_call, same] at now
    split at now
    · rename_i isCall
      rw [running] at now
      cases now
      refine ⟨rfl, ?_⟩
      rw [isCall]
      simpa [PositionState.goto, waiting] using turn
    · rename_i different
      exact absurd (h.alone turn now) different
  · intro other otherWorker work existing position now
    rw [goto_call, same] at now
    split at now
    · exact current otherWorker work existing position now
    · rename_i different
      have reads : (state.call other).running = some otherWorker := by rw [now]; rfl
      exact absurd (h.alone turn reads) different

theorem Serial.idles (h : Serial worker state) (call : Nat) (resting : stage.running = none)
    (own : ∀ other work, stage ≠ .queued other work)
    : Serial worker (state.goto call stage) := by
  constructor
  · intro other otherWorker work now
    rw [goto_call] at now
    split at now
    · exact absurd now (own otherWorker work)
    · exact h.own other otherWorker work now
  · intro other running now
    rw [goto_call] at now
    split at now
    · rw [resting] at now
      cases now
    · exact h.turn other running now
  · intro other otherWorker work existing position now
    rw [goto_call] at now
    split at now
    · rw [now] at resting
      cases resting
    · exact h.current other otherWorker work existing position now

theorem Serial.enqueue (h : Serial worker state) (call : Nat) (work : PositionWork)
    : Serial worker (state.enqueue call worker work) := by
  constructor
  · intro other otherWorker otherWork now
    rw [enqueue_call] at now
    split at now
    · cases now
      rfl
    · exact h.own other otherWorker otherWork now
  · intro other running now
    rw [enqueue_call] at now
    split at now
    · cases now
    · obtain ⟨on, first⟩ := h.turn other running now
      refine ⟨on, ?_⟩
      simp [PositionState.enqueue, first]
  · intro other otherWorker otherWork existing position now
    rw [enqueue_call] at now
    split at now
    · cases now
    · exact h.current other otherWorker otherWork existing position now

theorem Serial.step (h : Serial worker before) (allowed : OneWorker worker before label)
    (taken : positionStep key before label = some after)
    : Serial worker after := by
  cases positionStep_cases taken with
  | starts label call stage idle quiet =>
    rcases quiet with rfl | ⟨answer, rfl⟩ <;> exact h.idles call rfl (by simp)
  | waits label call other work idle on asked =>
    obtain rfl := allowed.1 other on
    exact h.enqueue call work
  | peeks call readable answer peeking => exact h.idles call rfl (by simp)
  | finds call other work readable answer queued turn =>
    obtain rfl := h.own call other work queued
    exact h.settle turn rfl answer
  | decides call other work readable position queued turn founded =>
    obtain rfl := h.own call other work queued
    refine h.goto turn rfl rfl rfl ?_
    intro otherWorker otherWork existing otherPosition now
    cases now
    cases readable with
    | true => rfl
    | false => exact allowed.2 call rfl
  | puts call other work existing position now landed putting =>
    have reads : (before.call call).running = some other := by rw [putting]; rfl
    obtain ⟨rfl, turn⟩ := h.turn call other reads
    exact h.settle turn (by cases landed <;> rfl) _
  | rejects call other work existing position now landed putting =>
    have reads : (before.call call).running = some other := by rw [putting]; rfl
    obtain ⟨rfl, turn⟩ := h.turn call other reads
    exact h.goto turn (by cases landed <;> rfl) (by cases landed <;> rfl) rfl (by simp)
  | rereads call other work existing readable answer rereading =>
    have reads : (before.call call).running = some other := by rw [rereading]; rfl
    obtain ⟨rfl, turn⟩ := h.turn call other reads
    exact h.settle turn rfl answer

theorem Serial.undisturbed (h : Serial worker state) (label : PositionLabel)
    : Undisturbed state label := by
  cases label with
  | put call now landed resolves =>
    cases landed with
    | false => trivial
    | true => exact h.current call
  | advance call other table position => trivial
  | ensure call other table initial => trivial
  | read call readable => trivial
  | reread call readable => trivial

theorem one_worker_undisturbed (h : (readPositions key).ReachableUnder (OneWorker worker) state)
    : (readPositions key).ReachableUnder Undisturbed state := by
  have initially (start : PositionState) (initial : (readPositions key).initial start)
      : Serial worker start := by
    have idle := initial.2.2
    constructor <;> simp [idle]
    intro _ _ running
    cases running
  have kept (before : PositionState) (label : PositionLabel) (after : PositionState)
      (serial : Serial worker before) (allowed : OneWorker worker before label)
      (taken : positionStep key before label = some after)
      : Serial worker after :=
    serial.step allowed taken
  exact h.under initially kept (fun _ label serial _ => serial.undisturbed label)

-- Runs

def flintOrgEvents : ReadPositionKey := { agentId := "flint", stream := "org-event" }

def noReadPosition : PositionState where
  row := none
  committed := []
  tail _ := []
  call _ := .idle

theorem noReadPosition_initial : (readPositions flintOrgEvents).initial noReadPosition :=
  ⟨rfl, fun _ => rfl, fun _ => rfl⟩

/-- Two acknowledgements on one worker, the second of an earlier event; the get of the
second throws when it is not readable.
-/
def laterThenEarlier (readable : Bool) : List PositionLabel := [
  .advance 0 0 true "2026-01-02T00:00:00.000Z\te2", .read 0 true,
  .put 0 "2026-01-02T00:00:01.000Z" true true,
  .advance 1 0 true "2026-01-01T00:00:00.000Z\te1", .read 1 readable ]

def putsEarlier : PositionLabel := .put 1 "2026-01-02T00:00:02.000Z" true true

/-- A get that throws is taken for an absent row, and the put that follows moves back. -/
theorem failed_get_moves_back
    : ∃ state, (readPositions flintOrgEvents).Reachable state
      ∧ ¬ NeverMovesBack state.committed := by
  have final
      : ((readPositions flintOrgEvents).run noReadPosition
          (laterThenEarlier false ++ [putsEarlier])).map PositionState.committed
        = some ["2026-01-01T00:00:00.000Z\te1", "2026-01-02T00:00:00.000Z\te2"] := rfl
  obtain ⟨state, executed, committed⟩ := Option.map_eq_some_iff.mp final
  refine ⟨state, System.reachable_of_run noReadPosition_initial executed, ?_⟩
  rw [committed]
  unfold NeverMovesBack
  decide

/-- With a get that is answered, the earlier acknowledgement commits nothing. -/
theorem earlier_ack_commits_nothing
    : ∃ state, (readPositions flintOrgEvents).ReachableUnder Undisturbed state
      ∧ state.committed = ["2026-01-02T00:00:00.000Z\te2"]
      ∧ NeverMovesBack state.committed := by
  have final
      : ((readPositions flintOrgEvents).run noReadPosition
          (laterThenEarlier true)).map PositionState.committed
        = some ["2026-01-02T00:00:00.000Z\te2"] := rfl
  obtain ⟨state, executed, committed⟩ := Option.map_eq_some_iff.mp final
  have allowed : ∀ label ∈ laterThenEarlier true, ∀ state, OneWorker 0 state label := by
    simp [laterThenEarlier, OneWorker, PositionLabel.worker]
  have reached : (readPositions flintOrgEvents).ReachableUnder Undisturbed state :=
    one_worker_undisturbed
      ⟨noReadPosition, noReadPosition_initial, System.reachesUnder_of_run allowed executed⟩
  exact ⟨state, reached, committed, committed_positions_forward flintOrgEvents state reached⟩

end Flair.Catchup
