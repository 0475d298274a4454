import Flair.Migrations.Cycles

/-! No unconfirmed row is forgotten: every durable state that is written lists or counts the
rows owed so far, and records success only on a passing gate or with nothing left to do.
-/

namespace Flair.Migrations

open Transition Tallying

-- What holds of one write

/-- What an entry recorded as successful rests on: a gate that passed, a record emptied with no
work pending, or an entry that was successful before and changes its unconfirmed record only.
-/
def Written.Justified (written : Written) : Prop :=
  match written.basis with
  | .halt => False
  | .completion run corpusHash reads =>
    run.migration.id = written.id ∧ completionGate run corpusHash reads = .passed
  | .emptied record detected => record.count = 0 ∧ detected = some false
  | .revised =>
    ∃ before record, written.replaced = some before ∧ before.lastOutcome = .success
      ∧ written.entry = withUnconfirmedRecord before record

def Covered (file : MigrationStateFile) (owed : String → Finset String) (id : String) : Prop :=
  (recordOf (recordedUnconfirmed (file id))).Covers (owed id)

structure Written.Sound (written : Written) : Prop where
  placed : written.file written.id = some written.entry
  covered : ∀ id, Covered written.file written.owed id
  justified : written.entry.lastOutcome = .success → written.Justified

structure State.SteadyBut (state : State) (underway : String → Prop) : Prop where
  covered : ∀ id, ¬ underway id → Covered state.file state.owed id
  writes : ∀ written ∈ state.writes, written.Sound

/-- Every migration is covered, and every write so far was sound. -/
abbrev State.Steady (state : State) : Prop := state.SteadyBut fun _ => False

variable {state : State} {io : StateIO} {id : String}

theorem State.Steady.but (h : state.Steady) (underway : String → Prop)
    : state.SteadyBut underway :=
  ⟨fun id _ => h.covered id False.elim, h.writes⟩

theorem writeMigrationStateEntry_intact (intact : io.intact = true) (file : MigrationStateFile)
    (entry : MigrationStateEntry)
    : writeMigrationStateEntry io file id entry = Function.update file id (some entry) := by
  obtain ⟨readable, landed⟩ := Bool.and_eq_true_iff.mp intact
  simp [writeMigrationStateEntry, readMigrationState, readable, landed]

section Record

variable {entry : MigrationStateEntry} {basis : WriteBasis} {kept : Option UnconfirmedRecord}

theorem State.record_file (intact : io.intact = true)
    : (state.record io id entry basis).file = Function.update state.file id (some entry) :=
  writeMigrationStateEntry_intact intact state.file entry

theorem State.SteadyBut.record (intact : io.intact = true)
    (h : state.SteadyBut fun other => other = id)
    (covers : (recordOf kept).Covers (state.owed id))
    (fields : (entry.rowsUnconfirmed, entry.unconfirmedIds) = unconfirmedState kept)
    (justified : entry.lastOutcome = .success
      → Written.Justified ⟨id, state.file id, entry, basis, state.file, state.owed⟩)
    : (state.record io id entry basis).Steady := by
  have covered : ∀ other,
      Covered (Function.update state.file id (some entry)) state.owed other := by
    intro other
    by_cases same : other = id
    · subst same
      rw [Covered, Function.update_self]
      exact covers_written covers fields
    · rw [Covered, Function.update_of_ne same]
      exact h.covered other same
  refine ⟨fun other _ => ?_, ?_⟩
  · rw [State.record_file intact]
    exact covered other
  intro written member
  obtain ⟨_, landed⟩ := Bool.and_eq_true_iff.mp intact
  simp only [State.record, landed, if_true, List.mem_append, List.mem_singleton] at member
  rcases member with before | rfl
  · exact h.writes written before
  · rw [writeMigrationStateEntry_intact intact]
    exact ⟨Function.update_self .., covered, justified⟩

theorem State.SteadyBut.halt (intact : io.intact = true)
    (h : state.SteadyBut fun other => other = id)
    (covers : (recordOf kept).Covers (state.owed id)) (reason : String)
    (rowsDone rowsRemaining : Nat)
    : (haltMigration state io id reason rowsDone rowsRemaining kept).Steady :=
  h.record intact covers rfl (fun success => by cases success)

end Record

-- The loop over the registry

theorem State.clear_owed (state : State) (id : String) (cleared : List String)
    : (state.clear id cleared).owed
      = Function.update state.owed id (state.owed id \ cleared.toFinset) := rfl

theorem State.Steady.clear (h : state.Steady) (cleared : List String)
    : (state.clear id cleared).Steady := by
  refine ⟨fun other _ => ?_, h.writes⟩
  have before := h.covered other False.elim
  rw [Covered, State.clear_owed]
  by_cases same : other = id
  · subst same
    rw [Function.update_self]
    exact before.mono Finset.sdiff_subset
  · rw [Function.update_of_ne same]
    exact before

theorem State.Steady.revise (intact : io.intact = true) (h : state.Steady)
    {record : Option UnconfirmedRecord} (covers : (recordOf record).Covers (state.owed id))
    : (state.revise io id (state.file id) record).Steady := by
  unfold State.revise
  split
  · rename_i before held
    split
    · exact (h.but _).record intact covers rfl
        (fun success => ⟨before, record, held, success, rfl⟩)
    · exact h
  · exact h

structure OnlyEntry (before after : State) (id : String) : Prop where
  owed : after.owed = before.owed
  others : ∀ other, other ≠ id → after.file other = before.file other

theorem OnlyEntry.refl (state : State) (id : String) : OnlyEntry state state id :=
  ⟨rfl, fun _ _ => rfl⟩

theorem onlyEntry_record (intact : io.intact = true) (entry : MigrationStateEntry)
    (basis : WriteBasis)
    : OnlyEntry state (state.record io id entry basis) id :=
  ⟨rfl, fun other apart => by rw [State.record_file intact, Function.update_of_ne apart]⟩

theorem onlyEntry_revise (intact : io.intact = true) (entry : Option MigrationStateEntry)
    (record : Option UnconfirmedRecord)
    : OnlyEntry state (state.revise io id entry record) id := by
  unfold State.revise
  split
  · split
    · exact onlyEntry_record intact _ _
    · exact .refl _ _
  · exact .refl _ _

theorem covers_survived {record : Option UnconfirmedRecord} {owed : Finset String}
    (h : (recordOf record).Covers owed)
    : (recordOf (record.filter fun record => 0 < record.count)).Covers owed := by
  cases record with
  | none => exact h
  | some record =>
    by_cases some : 0 < record.count
    · simpa [Option.filter, some] using h
    · exact h.eq_empty (Nat.eq_zero_of_not_pos some) ▸ Tally.covers_none

/-- One turn of the loop keeps every migration covered and leaves a record that covers what its
own migration owes.
-/
theorem detectStep_spec {read : MigrationStateFile} {migration : RegisteredMigration}
    (intact : io.intact = true) (h : state.Steady)
    (current : read migration.id = state.file migration.id)
    (check : String → UnconfirmedVerdict) (detected : Option Bool) (now : String)
    : let cleared := state.clear migration.id
        (clearedIds (checkOf migration check) (read migration.id))
      let next := (detectStep state read migration check detected now io).1
      next.Steady ∧ OnlyEntry cleared next migration.id
      ∧ (recordOf (reverifyUnconfirmed (checkOf migration check) (read migration.id))).Covers
          (cleared.owed migration.id) := by
  intro cleared next
  have steady : cleared.Steady := State.Steady.clear h _
  have covers : (recordOf (reverifyUnconfirmed (checkOf migration check)
      (read migration.id))).Covers (cleared.owed migration.id) := by
    rw [State.clear_owed, Function.update_self]
    refine covers_reverified _ ?_
    rw [current]
    exact h.covered migration.id False.elim
  have revised : ∀ kept, (recordOf kept).Covers (cleared.owed migration.id)
      → (cleared.revise io migration.id (read migration.id) kept).Steady
        ∧ OnlyEntry cleared (cleared.revise io migration.id (read migration.id) kept)
            migration.id := by
    intro kept covers
    refine ⟨?_, onlyEntry_revise intact _ _⟩
    rw [current]
    exact steady.revise intact covers
  suffices both : next.Steady ∧ OnlyEntry cleared next migration.id from ⟨both.1, both.2, covers⟩
  change (detectStep state read migration check detected now io).1.Steady
    ∧ OnlyEntry cleared (detectStep state read migration check detected now io).1 migration.id
  unfold detectStep
  dsimp only
  split
  · exact revised _ covers
  cases detected with
  | none => exact ⟨steady, .refl _ _⟩
  | some pending =>
    cases pending with
    | true => exact ⟨steady, .refl _ _⟩
    | false =>
      dsimp only
      split
      · exact revised _ (covers_survived covers)
      · rename_i emptied nothing held counted
        rw [counted] at nothing covers
        have zero : emptied.count = 0 := by
          by_contra some
          simp [Option.filter, Nat.pos_of_ne_zero some] at nothing
        refine ⟨?_, onlyEntry_record intact _ _⟩
        refine @State.SteadyBut.record _ _ _ _ _ none intact (steady.but _) ?_ rfl
          (fun _ => ⟨zero, rfl⟩)
        exact covers.eq_empty zero ▸ Tally.covers_none
      · exact ⟨steady, .refl _ _⟩

-- The invariant

/-- The migrations still to be run are distinct, and each carries a record that covers it. -/
structure Queue (owed : String → Finset String) (candidates : List Candidate) : Prop where
  distinct : (candidates.map fun candidate => candidate.1.id).Nodup
  covered : ∀ candidate ∈ candidates, (recordOf candidate.2).Covers (owed candidate.1.id)

structure Underway (state : State) (run : Run) (rest : List Candidate) : Prop where
  steady : state.SteadyBut fun id => id = run.migration.id
  covered : run.unconfirmedRecord.Covers (state.owed run.migration.id)
  apart : ∀ candidate ∈ rest, candidate.1.id ≠ run.migration.id
  queue : Queue state.owed rest

def State.Sound (state : State) : Prop :=
  match state.phase with
  | .idle => state.Steady
  | .detecting read rest candidates =>
    state.Steady ∧ (∀ migration ∈ rest, read migration.id = state.file migration.id)
    ∧ (candidates.map (fun candidate => candidate.1.id)
      ++ rest.map RegisteredMigration.id).Nodup
    ∧ Queue state.owed candidates
  | .running _ _ rest => state.Steady ∧ Queue state.owed rest
  | .batching _ _ run rest => Underway state run rest
  | .completing _ _ run rest => Underway state run rest

theorem State.Steady.ofFrame {before : State} (h : before.Steady) (file : state.file = before.file)
    (owed : state.owed = before.owed) (writes : state.writes = before.writes)
    : state.Steady := by
  refine ⟨fun id _ => ?_, ?_⟩
  · rw [file, owed]
    exact h.covered id False.elim
  · rw [writes]
    exact h.writes

variable {rest : List Candidate}

theorem State.Steady.proceed (h : state.Steady) (corpusHash : String) (envelopeStale : Bool)
    (queue : Queue state.owed rest)
    : (state.proceed corpusHash envelopeStale rest).Sound := by
  unfold State.Sound State.proceed
  dsimp only
  cases rest with
  | nil => exact h.ofFrame rfl rfl rfl
  | cons candidate rest => exact ⟨h.ofFrame rfl rfl rfl, queue⟩

theorem Queue.update {owed : String → Finset String} {candidates : List Candidate}
    (h : Queue owed candidates) (apart : ∀ candidate ∈ candidates, candidate.1.id ≠ id)
    (rows : Finset String)
    : Queue (Function.update owed id rows) candidates := by
  refine ⟨h.distinct, ?_⟩
  intro candidate member
  rw [Function.update_of_ne (apart candidate member)]
  exact h.covered candidate member

theorem Underway.update {run next : Run} {rest : List Candidate} (h : Underway state run rest)
    (same : next.migration = run.migration) {rows : Finset String}
    (covers : next.unconfirmedRecord.Covers rows)
    : Underway { state with owed := Function.update state.owed run.migration.id rows } next rest
    := by
  refine ⟨⟨?_, h.steady.writes⟩, ?_, ?_, ?_⟩
  · intro id apart
    rw [same] at apart
    have before := h.steady.covered id apart
    rw [Covered] at before ⊢
    dsimp only
    rw [Function.update_of_ne apart]
    exact before
  · dsimp only
    rw [same, Function.update_self]
    exact covers
  · rw [same]
    exact h.apart
  · exact h.queue.update h.apart rows

variable {run : Run}

theorem Underway.recorded (h : Underway state run rest)
    : (recordOf (some run.unconfirmedRecord)).Covers (state.owed run.migration.id) :=
  h.covered

theorem Underway.haltRun (intact : io.intact = true) (h : Underway state run rest)
    (corpusHash message : String)
    : (haltRun state corpusHash rest run message io).Sound :=
  (h.steady.halt intact h.recorded _ _ _).proceed _ _ h.queue

theorem completeStep_sound (intact : io.intact = true) (h : Underway state run rest)
    (corpusHash : String) (envelopeStale : Bool) (reads : GateReads) (endedAt : String)
    : (completeStep state corpusHash envelopeStale run rest reads endedAt io).Sound := by
  unfold completeStep
  dsimp only
  split
  · exact (h.steady.halt intact h.recorded _ _ _).proceed _ _ h.queue
  rename_i passed
  have steady := @State.SteadyBut.record _ _ _
    (successEntry state.runningVersion endedAt run.outcomes.rowsDone
      (some run.unconfirmedRecord))
    (.completion run corpusHash reads) (some run.unconfirmedRecord) intact h.steady h.covered rfl
    (fun _ => ⟨rfl, passed⟩)
  exact steady.proceed _ _ h.queue

theorem batchStep_sound (intact : io.intact = true) (h : Underway state run rest)
    (corpusHash : String) (envelopeStale : Bool) (report : BatchReport) (failure : Option String)
    : (batchStep state corpusHash envelopeStale run rest report failure io).Sound := by
  have next := @Underway.update _ _ (run.note report) _ h rfl _ (Run.covers_note report h.covered)
  unfold batchStep
  dsimp only
  split
  · exact next.haltRun intact _ _
  · split
    · exact ⟨⟨next.steady.covered, next.steady.writes⟩, next.covered, next.apart, next.queue⟩
    · exact ⟨⟨next.steady.covered, next.steady.writes⟩, next.covered, next.apart, next.queue⟩

theorem throwStep_sound (intact : io.intact = true) (h : Underway state run rest)
    (corpusHash : String) (failure : BatchError)
    : (throwStep state corpusHash run rest failure io).Sound :=
  (@Underway.update _ _ (run.noteError failure) _ h rfl _
    (Run.covers_noteError failure h.covered)).haltRun intact _ _

theorem enterStep_sound {candidate : Candidate} (intact : io.intact = true) (h : state.Steady)
    (queue : Queue state.owed (candidate :: rest)) (corpusHash : String) (envelopeStale : Bool)
    (rebaselined : Option String) (reads : PreflightReads)
    : (enterStep state corpusHash envelopeStale candidate rest rebaselined reads io).Sound := by
  obtain ⟨migration, carried⟩ := candidate
  obtain ⟨first, distinct⟩ := List.nodup_cons.mp queue.distinct
  have later : Queue state.owed rest :=
    ⟨distinct, fun candidate member => queue.covered candidate (List.mem_cons_of_mem _ member)⟩
  have covers := queue.covered _ List.mem_cons_self
  unfold enterStep
  dsimp only
  split
  · exact h.proceed _ _ later
  split
  · exact ((h.but _).halt intact covers _ _ _).proceed _ _ later
  refine ⟨⟨fun id _ => h.covered id False.elim, h.writes⟩, ?_, ?_, later⟩
  · exact Run.covers_start migration _ covers
  · intro candidate member same
    exact first (List.mem_map.mpr ⟨candidate, member, same⟩)

theorem detect_sound {read : MigrationStateFile} {migration : RegisteredMigration}
    {rest : List RegisteredMigration} {candidates : List Candidate} (intact : io.intact = true)
    (h : state.Steady)
    (current : ∀ later ∈ migration :: rest, read later.id = state.file later.id)
    (distinct : (candidates.map (fun candidate => candidate.1.id)
      ++ (migration :: rest).map RegisteredMigration.id).Nodup)
    (queue : Queue state.owed candidates) (check : String → UnconfirmedVerdict)
    (detected : Option Bool) (now : String) {next : State} {pending : Bool}
    (stepped : detectStep state read migration check detected now io = (next, pending))
    : State.Sound { next with
        phase := .detecting read rest
          (if pending then
            candidates
              ++ [(migration, reverifyUnconfirmed (checkOf migration check) (read migration.id))]
          else candidates) } := by
  obtain ⟨steady, frame, covers⟩ := detectStep_spec intact h (current _ List.mem_cons_self) check
    detected now
  rw [stepped] at steady frame
  dsimp only at steady frame
  rw [List.map_cons] at distinct
  have apart : ∀ candidate ∈ candidates, candidate.1.id ≠ migration.id := by
    intro candidate member same
    rw [List.nodup_append] at distinct
    exact distinct.2.2 _ (List.mem_map.mpr ⟨candidate, member, rfl⟩) _ List.mem_cons_self same
  have waiting : Queue next.owed candidates := by
    rw [frame.owed, State.clear_owed]
    exact queue.update apart _
  have moved := distinct
  rw [List.append_cons] at moved
  refine ⟨steady.ofFrame rfl rfl rfl, ?_, ?_, ?_⟩
  · intro later member
    have different : later.id ≠ migration.id := by
      intro same
      have rests := (List.nodup_append.mp distinct).2.1
      exact (List.nodup_cons.mp rests).1 (same ▸ List.mem_map_of_mem member)
    rw [current later (List.mem_cons_of_mem _ member)]
    exact (frame.others later.id different).symm
  · cases pending with
    | true => simpa using moved
    | false =>
      exact distinct.sublist (List.Sublist.append_left (List.sublist_cons_self _ _) _)
  · cases pending with
    | false => exact waiting
    | true =>
      refine ⟨?_, ?_⟩
      · have init := (List.nodup_append.mp moved).1
        simpa using init
      intro candidate member
      rcases List.mem_append.mp member with before | last
      · exact waiting.covered candidate before
      · obtain rfl := List.mem_singleton.mp last
        rw [frame.owed]
        exact covers

/-- Every step of a cycle whose reads and writes of the state file go through keeps the
invariant, by cases on the phase.
-/
theorem step_sound {before after : State} {label : Label} (h : before.Sound)
    (intact : label.intact = true) (taken : cycles.step before label = some after)
    : after.Sound := by
  obtain ⟨file, runningVersion, phase, owed, writes⟩ := before
  change step _ label = some after at taken
  unfold step at taken
  dsimp only at taken
  split at taken
  · rename_i registry version readable
    cases taken
    refine ⟨State.Steady.ofFrame h rfl rfl rfl, ?_, ?_, ?_⟩
    · intro migration _
      change readMigrationState readable file migration.id = file migration.id
      rw [readMigrationState, if_pos (show readable = true from intact)]
    · simpa using registry.distinct
    · exact ⟨List.nodup_nil, by simp⟩
  · cases taken
    obtain ⟨steady, current, distinct, queue⟩ := h
    exact detect_sound intact steady current distinct queue _ _ _ rfl
  · obtain ⟨steady, -, -, queue⟩ := h
    split at taken
    · cases taken
      exact steady.ofFrame rfl rfl rfl
    · cases taken
      exact State.Steady.proceed steady _ _ queue
  · cases taken
    exact enterStep_sound intact h.1 h.2 _ _ _ _
  · cases taken
    exact batchStep_sound intact h _ _ _ _
  · cases taken
    exact throwStep_sound intact h _ _
  · cases taken
    exact completeStep_sound intact h _ _ _ _
  · cases taken
    exact State.Steady.ofFrame h.1 rfl rfl rfl
  · cases taken
    exact State.Steady.ofFrame h.1 rfl rfl rfl
  · cases taken

-- Every run

/-- Every read of the state file and every write to it goes through. -/
abbrev Intact : Guard State Label := fun _ label => label.intact = true

theorem sound_of_reachable (reachable : cycles.ReachableUnder Intact state) : state.Sound := by
  refine System.ReachableUnder.invariant ?_ (fun _ _ _ h intact taken => step_sound h intact taken)
    reachable
  rintro start ⟨idle, nothing, unwritten⟩
  rw [State.Sound, idle]
  refine ⟨fun id _ => ?_, ?_⟩
  · rw [Covered, nothing id]
    exact Tally.covers_none
  · simp [unwritten]

theorem State.Sound.writes (h : state.Sound) : ∀ written ∈ state.writes, written.Sound := by
  unfold State.Sound at h
  split at h
  · exact h.writes
  · exact h.1.writes
  · exact h.1.writes
  · exact h.steady.writes
  · exact h.steady.writes

/-- As long as the state file can be read and written, every durable state lists or counts, for
each migration, the rows owed when it was written, and an entry recorded as successful rests on a
gate that passed, on a record emptied with no work pending, or on an entry successful before.
-/
theorem unconfirmed_never_forgotten (reachable : cycles.ReachableUnder Intact state)
    : ∀ written ∈ state.writes,
        written.file written.id = some written.entry
        ∧ (∀ id, Accounted (written.file id) (written.owed id))
        ∧ (written.entry.lastOutcome = .success → written.Justified) := by
  intro written member
  have sound := (sound_of_reachable reachable).writes written member
  exact ⟨sound.placed, fun id => accounted_of_covers (sound.covered id), sound.justified⟩

-- Two runs

def freshState : State where
  file _ := none
  runningVersion := ""
  phase := .idle
  owed _ := ∅
  writes := []

def oneMigration : MigrationRegistry where
  list := [⟨"embedding-stamp", .derivedOnly, true, true, true⟩]
  distinct := by decide

/-- A cycle whose one batch reports a row as unconfirmed and whose gate finds one row pending. -/
def haltingCycle (io : StateIO) : List Label :=
  [.begin oneMigration "1.0.0" true,
    .detect (fun _ => .pending) (some true) "" io,
    .preHash (some "corpus"),
    .enter none ⟨.ok 1, none, none, none, none⟩ io,
    .batch ⟨0, [], ["mem-1"], [], []⟩ none io,
    .complete ⟨.ok 1, .error "unread", .error "unread", fun _ => .error "unread"⟩ "" io]

def emptyingCycle : List Label :=
  [.begin oneMigration "1.0.0" true,
    .detect (fun _ => .atTarget) (some false) "" ⟨true, true⟩,
    .preHash none]

def blockedCycle : List Label :=
  [.begin oneMigration "1.0.0" true,
    .detect (fun _ => .pending) (some true) "" ⟨true, true⟩,
    .preHash (some "corpus"),
    .enter none ⟨.error "table closed", none, none, none, none⟩ ⟨true, true⟩]

def emptiedState : State :=
  (cycles.run freshState (haltingCycle ⟨true, true⟩ ++ emptyingCycle)).getD freshState

def forgetfulState : State :=
  (cycles.run freshState (haltingCycle ⟨true, false⟩ ++ blockedCycle)).getD freshState

theorem freshState_initial : cycles.initial freshState := ⟨rfl, fun _ => rfl, rfl⟩

theorem emptiedState_reachable : cycles.ReachableUnder Intact emptiedState := by
  refine ⟨freshState, freshState_initial, System.reachesUnder_of_run ?_
    (show cycles.run _ (haltingCycle ⟨true, true⟩ ++ emptyingCycle) = _ from rfl)⟩
  intro label member _
  simp only [haltingCycle, emptyingCycle, List.cons_append, List.nil_append, List.mem_cons,
    List.not_mem_nil, or_false] at member
  rcases member with rfl | rfl | rfl | rfl | rfl | rfl | rfl | rfl | rfl <;> rfl

/-- Witness: the halt of the first cycle and the completion of the second. -/
theorem emptiedState_accounted
    : emptiedState.writes.length = 2
      ∧ ∀ written ∈ emptiedState.writes,
        written.file written.id = some written.entry
        ∧ (∀ id, Accounted (written.file id) (written.owed id))
        ∧ (written.entry.lastOutcome = .success → written.Justified) :=
  ⟨rfl, unconfirmed_never_forgotten emptiedState_reachable⟩

/-- Success is recorded without a gate when the record empties, and a row is forgotten once the
write that names it has failed.
-/
theorem emptied_without_gate_and_forgotten
    : (∃ state, cycles.ReachableUnder Intact state
        ∧ ∃ written ∈ state.writes, written.entry.lastOutcome = .success
          ∧ ∀ run corpusHash reads, written.basis ≠ .completion run corpusHash reads)
      ∧ ∃ state, cycles.Reachable state
        ∧ ¬ ∀ written ∈ state.writes,
          Accounted (written.file written.id) (written.owed written.id) := by
  refine ⟨⟨emptiedState, emptiedState_reachable, _, @List.mem_of_getElem? _ _ 1 _ rfl, rfl, ?_⟩,
    forgetfulState, System.reachable_of_run freshState_initial
      (show cycles.run _ (haltingCycle ⟨true, false⟩ ++ blockedCycle) = _ from rfl), ?_⟩
  · intro run corpusHash reads same
    cases same
  · decide

end Flair.Migrations
