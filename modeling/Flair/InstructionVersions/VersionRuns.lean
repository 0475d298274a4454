import Flair.InstructionVersions.Contiguity

/-! Version histories over whole runs: contiguous chains where each caller's transaction commits
at current heads, and the gap a late one leaves.
-/

namespace Flair.InstructionVersions

open KeyLedger LinkedChain Transition

variable {sha256 : String → String}

-- The invariant

/-- A sound table, what each writer knows of it and the locks it holds, and no record removed
from within a chain.
-/
structure HistoryState.Sound (state : HistoryState) : Prop where
  records : SoundRecords state.records
  holds : ∀ writer, Holds state.records (state.stage writer)
  locks : ∀ writer, state.lock.HoldsExactly writer (state.stage writer).held.toList
  removedInside : state.removedInside = []

theorem HistoryState.Sound.headsHeld_disjoint {state : HistoryState} (h : state.Sound)
    {writer other : Nat} (different : other ≠ writer) {subject : Subject}
    (works : subject ∈ (state.stage writer).headsHeld)
    : subject ∉ (state.stage other).headsHeld := by
  intro also
  have held := (h.holds writer).held_of_headsHeld works
  have alsoHeld := (h.holds other).held_of_headsHeld also
  exact different ((h.locks other).unique (h.locks writer) alsoHeld held)

theorem pendingStep_records {records : List VersionRecord} {lock : Ledger SubjectType Nat}
    {writer : Nat} {staged : List StagedVersion} {act : WriterLabel} {move : WriterMove}
    (h : writerStep sha256 records lock writer (.pending staged) act = some move)
    : (∃ dropped, act = .commitJoined dropped) ∨ move.records = records := by
  cases act with
  | commitJoined dropped => exact Or.inl ⟨dropped, rfl⟩
  | abortJoined =>
    cases h
    exact Or.inr rfl
  | _ => cases h

/-- A step leaves the subjects another writer works from: by the lock, or, for a caller's
commit, by the guard.
-/
theorem HistoryState.Sound.apart {state : HistoryState} (h : state.Sound) {writer other : Nat}
    {act : WriterLabel} {move : WriterMove} (allowed : CommitsCurrent state { writer, act })
    (taken : writerStep sha256 state.records state.lock writer (state.stage writer) act
      = some move)
    (keeps : Keeps state.records (state.stage writer) move) (different : other ≠ writer)
    {subject : Subject} (works : subject ∈ (state.stage other).headsHeld)
    : ofSubject move.records subject = ofSubject state.records subject := by
  cases stage : state.stage writer with
  | pending staged =>
    rw [stage] at taken keeps
    rcases pendingStep_records taken with ⟨dropped, rfl⟩ | unchanged
    · simp only [CommitsCurrent, stage] at allowed
      apply keeps.frame
      intro member
      obtain ⟨entry, inStaged, rfl⟩ := List.mem_map.mp member
      exact (allowed entry inStaged).2 other different works
    · rw [unchanged]
  | _ =>
    apply keeps.frame
    intro member
    have mine : subject ∈ (state.stage writer).headsHeld := by
      rw [stage] at member ⊢
      exact member
    exact h.headsHeld_disjoint different mine works

theorem HistoryState.Sound.next {before after : HistoryState} {label : HistoryLabel}
    (h : before.Sound) (allowed : CommitsCurrent before label)
    (taken : historyStep sha256 before label = some after)
    : after.Sound := by
  obtain ⟨writer, act⟩ := label
  obtain ⟨move, moved, rfl⟩ := Option.map_eq_some_iff.mp taken
  have current : ∀ dropped staged, act = .commitJoined dropped
      → before.stage writer = .pending staged → Current before.records staged := by
    intro dropped staged isCommit stage entry member
    subst isCommit
    simp only [CommitsCurrent, stage] at allowed
    exact (allowed entry member).1
  have keeps := writerStep_keeps h.records (h.holds writer) current moved
  have lock := writerStep_lock moved
  refine ⟨keeps.sound, ?_, ?_, ?_⟩
  · intro other
    by_cases same : other = writer
    · subst same
      simpa [HistoryState.apply] using keeps.holds
    have elsewhere : Holds move.records (before.stage other) := by
      apply (h.holds other).frame
      intro subject works
      exact h.apart allowed moved keeps same works
    simpa [HistoryState.apply, same] using elsewhere
  · intro other
    by_cases same : other = writer
    · subst same
      simpa [HistoryState.apply] using lock.own (h.locks other)
    · have others := lock.other (h.locks writer) (h.locks other) same
      simpa [HistoryState.apply, same] using others
  · simp [HistoryState.apply, keeps.removedInside, h.removedInside]

-- Contiguous chains

end Flair.InstructionVersions
