import Flair.EmbeddingSpace.GuardScans

/-! The guard fails closed: it answers uniform only from a scan that started after every
noted write that disturbs the count, and outcomes are published in the order the scans
started.
-/

namespace Flair.EmbeddingSpace

open Dynamic Transition

variable {currentModelId : String}

-- Events

/-- A noted write that may change the stamps or the count a scan has seen: its stamp is not
trusted, it replaced an untrusted vector, it replaced a row that was not read while the
guard was not uniform, or its stamp could not be read.
-/
def GuardEvent.disturbs (currentModelId : String) : GuardEvent → Bool
  | .noted stamp previous uniform => !keepsCount currentModelId stamp previous uniform
  | .notedUnreadable => true
  | .started _ | .published _ _ => false

def GuardEvent.publishes : GuardEvent → Option Nat
  | .published scan _ => some scan
  | .started _ | .noted _ _ _ | .notedUnreadable => none

def GuardEvent.starts : GuardEvent → Option Nat
  | .started scan => some scan
  | .published _ _ | .noted _ _ _ | .notedUnreadable => none

/-- Scans are numbered in the order they start, and an outcome is published only after
those of the scans that started earlier.
-/
structure InStartOrder (log : List GuardEvent) : Prop where
  starts : (log.filterMap GuardEvent.starts).Pairwise (fun later earlier => earlier < later)
  publishes : (log.filterMap GuardEvent.publishes).Pairwise
    (fun later earlier => earlier < later)

def UndisturbedSince (currentModelId : String) (scan : Nat) (log : List GuardEvent) : Prop :=
  ∃ since before, log = since ++ .started scan :: before
    ∧ ∀ event ∈ since, event.disturbs currentModelId = false

/-- The last outcome is the scan's verdict: it started after every noted write that
disturbs, and read no foreign stamp and no vector without a trusted stamp.
-/
def LastVerdictClean (currentModelId : String) (scan : Nat) (log : List GuardEvent) : Prop :=
  ∃ rows since before, log = since ++ .published scan (.verdict rows) :: before
    ∧ (∀ event ∈ since, event.publishes = none)
    ∧ (∀ row ∈ rows, row.foreign currentModelId = false
        ∧ row.untrustedVector currentModelId = false)
    ∧ UndisturbedSince currentModelId scan log

variable {scan : Nat} {log : List GuardEvent} {event : GuardEvent}

theorem UndisturbedSince.cons (h : UndisturbedSince currentModelId scan log)
    (quiet : event.disturbs currentModelId = false)
    : UndisturbedSince currentModelId scan (event :: log) := by
  obtain ⟨since, before, rfl, undisturbed⟩ := h
  exact ⟨event :: since, before, rfl, List.forall_mem_cons.mpr ⟨quiet, undisturbed⟩⟩

theorem LastVerdictClean.cons (h : LastVerdictClean currentModelId scan log)
    (quiet : event.disturbs currentModelId = false) (silent : event.publishes = none)
    : LastVerdictClean currentModelId scan (event :: log) := by
  obtain ⟨rows, since, before, rfl, unpublished, clean, undisturbed⟩ := h
  exact ⟨rows, event :: since, before, rfl, List.forall_mem_cons.mpr ⟨silent, unpublished⟩,
    clean, undisturbed.cons quiet⟩

-- The invariant

def ScanStage.epoch : ScanStage → Option Nat
  | .opening startEpoch | .reading startEpoch _ => some startEpoch
  | .idle | .settled => none

/-- The guard's variables say what they say of its events: a scan whose epoch still stands
has not been disturbed, and a verdict that is uniform, unfailed, not stale and without
excluded rows is clean.
-/
structure Guarded (currentModelId : String) (state : GuardState) : Prop where
  ordered : InStartOrder state.log
  numbered : ∀ event ∈ state.log, ∀ scan, event.starts = some scan → scan ≤ state.scanSeq
  latest : ∀ event ∈ state.log, ∀ scan, event.publishes = some scan
    → scan ≤ state.publishedScanSeq
  bounded : state.publishedScanSeq ≤ state.scanSeq
  pending : ∀ scan startEpoch, (state.scan scan).epoch = some startEpoch
    → scan ≤ state.scanSeq ∧ scan ≠ state.publishedScanSeq ∧ startEpoch ≤ state.writeEpoch
  undisturbed : ∀ scan, (state.scan scan).epoch = some state.writeEpoch
    → UndisturbedSince currentModelId scan state.log
  clean : state.uniform = some true → state.excludedStale = false
    → state.lastScanError = none → state.excluded.getD 0 = 0
    → LastVerdictClean currentModelId state.publishedScanSeq state.log

/-- The variables the invariant reads are the same, the scans apart. -/
structure SameGuard (before after : GuardState) : Prop where
  log : after.log = before.log
  uniform : after.uniform = before.uniform
  excludedStale : after.excludedStale = before.excludedStale
  lastScanError : after.lastScanError = before.lastScanError
  excluded : after.excluded = before.excluded
  writeEpoch : after.writeEpoch = before.writeEpoch
  scanSeq : after.scanSeq = before.scanSeq
  publishedScanSeq : after.publishedScanSeq = before.publishedScanSeq

def NoNewScan (before after : GuardState) : Prop :=
  ∀ scan startEpoch, (after.scan scan).epoch = some startEpoch
    → (before.scan scan).epoch = some startEpoch

variable {before : GuardState}

theorem noNewScan_goto {stage : ScanStage}
    (kept : ∀ startEpoch, stage.epoch = some startEpoch
      → (before.scan scan).epoch = some startEpoch)
    : NoNewScan before (before.goto scan stage) := by
  intro other startEpoch now
  simp only [GuardState.goto, Function.update_apply] at now
  split at now
  · rename_i same
    exact same ▸ kept startEpoch now
  · exact now

theorem noNewScan_settled (before : GuardState) (scan : Nat)
    : NoNewScan before (before.goto scan .settled) :=
  noNewScan_goto (fun _ now => by cases now)

variable {after : GuardState}

theorem Guarded.moves (h : Guarded currentModelId before) (same : SameGuard before after)
    (scans : NoNewScan before after)
    : Guarded currentModelId after := by
  constructor
  · rw [same.log]
    exact h.ordered
  · rw [same.log, same.scanSeq]
    exact h.numbered
  · rw [same.log, same.publishedScanSeq]
    exact h.latest
  · rw [same.scanSeq, same.publishedScanSeq]
    exact h.bounded
  · rw [same.scanSeq, same.publishedScanSeq, same.writeEpoch]
    intro scan startEpoch now
    exact h.pending scan startEpoch (scans scan startEpoch now)
  · rw [same.log, same.writeEpoch]
    intro scan now
    exact h.undisturbed scan (scans scan before.writeEpoch now)
  · rw [same.log, same.uniform, same.excludedStale, same.lastScanError, same.excluded,
      same.publishedScanSeq]
    exact h.clean

-- Starts

theorem InStartOrder.start (h : InStartOrder log)
    (earlier : ∀ event ∈ log, ∀ other, event.starts = some other → other < scan)
    : InStartOrder (.started scan :: log) := by
  refine ⟨List.Pairwise.cons ?_ h.starts, h.publishes⟩
  intro other member
  obtain ⟨event, present, starts⟩ := List.mem_filterMap.mp member
  exact earlier event present other starts

variable {state : GuardState}

theorem Guarded.start (h : Guarded currentModelId state)
    : Guarded currentModelId (startScan state) := by
  constructor
  · apply h.ordered.start
    intro event member other starts
    exact Nat.lt_succ_of_le (h.numbered event member other starts)
  · intro event member other starts
    rcases List.mem_cons.mp member with rfl | old
    · cases starts
      exact le_rfl
    · exact Nat.le_succ_of_le (h.numbered event old other starts)
  · intro event member other publishes
    rcases List.mem_cons.mp member with rfl | old
    · cases publishes
    · exact h.latest event old other publishes
  · exact Nat.le_succ_of_le h.bounded
  · intro scan startEpoch now
    simp only [startScan, GuardState.record, GuardState.goto, Function.update_apply] at now ⊢
    split at now
    · rename_i new
      cases now
      have bounded := h.bounded
      exact ⟨by omega, by omega, le_rfl⟩
    · obtain ⟨numbered, unpublished, epoch⟩ := h.pending scan startEpoch now
      exact ⟨by omega, unpublished, epoch⟩
  · intro scan now
    simp only [startScan, GuardState.record, GuardState.goto, Function.update_apply] at now ⊢
    split at now
    · rename_i new
      exact ⟨[], state.log, by rw [new]; rfl, by simp⟩
    · exact (h.undisturbed scan now).cons rfl
  · intro uniform stale error excluded
    exact (h.clean uniform stale error excluded).cons rfl rfl

-- Outcomes

theorem InStartOrder.publish (h : InStartOrder log) (outcome : ScanOutcome)
    (earlier : ∀ event ∈ log, ∀ other, event.publishes = some other → other < scan)
    : InStartOrder (.published scan outcome :: log) := by
  refine ⟨h.starts, List.Pairwise.cons ?_ h.publishes⟩
  intro other member
  obtain ⟨event, present, publishes⟩ := List.mem_filterMap.mp member
  exact earlier event present other publishes

variable {startEpoch : Nat}

theorem Guarded.publish (h : Guarded currentModelId state)
    (running : (state.scan scan).epoch = some startEpoch) (newer : ¬ scan < state.publishedScanSeq)
    (outcome : ScanOutcome) (log : after.log = .published scan outcome :: state.log)
    (published : after.publishedScanSeq = scan) (seq : after.scanSeq = state.scanSeq)
    (epoch : after.writeEpoch = state.writeEpoch)
    (stages : after.scan = (state.goto scan .settled).scan)
    (clean : after.uniform = some true → after.excludedStale = false
      → after.lastScanError = none → after.excluded.getD 0 = 0
      → LastVerdictClean currentModelId scan after.log)
    : Guarded currentModelId after := by
  obtain ⟨numbered, unpublished, -⟩ := h.pending scan startEpoch running
  have later : state.publishedScanSeq < scan := by omega
  have others (other otherEpoch : Nat) (now : (after.scan other).epoch = some otherEpoch)
      : other ≠ scan ∧ (state.scan other).epoch = some otherEpoch := by
    simp only [stages, GuardState.goto, Function.update_apply] at now
    split at now
    · cases now
    · rename_i different
      exact ⟨different, now⟩
  constructor
  · rw [log]
    apply h.ordered.publish outcome
    intro event member other publishes
    exact lt_of_le_of_lt (h.latest event member other publishes) later
  · rw [log, seq]
    intro event member other starts
    rcases List.mem_cons.mp member with rfl | old
    · cases starts
    · exact h.numbered event old other starts
  · rw [log, published]
    intro event member other publishes
    rcases List.mem_cons.mp member with rfl | old
    · cases publishes
      exact le_rfl
    · exact le_of_lt (lt_of_le_of_lt (h.latest event old other publishes) later)
  · rw [published, seq]
    exact numbered
  · rw [published, seq, epoch]
    intro other otherEpoch now
    obtain ⟨different, before⟩ := others other otherEpoch now
    obtain ⟨known, -, stands⟩ := h.pending other otherEpoch before
    exact ⟨known, different, stands⟩
  · rw [log, epoch]
    intro other now
    exact (h.undisturbed other (others other state.writeEpoch now).2).cons rfl
  · rw [published]
    exact clean

theorem Guarded.publishVerdict (h : Guarded currentModelId state) {rows : List StampedRow}
    (running : state.scan scan = .reading startEpoch rows) (now : Int)
    : Guarded currentModelId (publishVerdict currentModelId state scan startEpoch rows now) := by
  have epoch : (state.scan scan).epoch = some startEpoch := by rw [running]; rfl
  unfold EmbeddingSpace.publishVerdict
  simp only
  split
  · exact h.moves ⟨rfl, rfl, rfl, rfl, rfl, rfl, rfl, rfl⟩ (noNewScan_settled state scan)
  rename_i stands
  split
  · exact h.moves ⟨rfl, rfl, rfl, rfl, rfl, rfl, rfl, rfl⟩ (noNewScan_settled state scan)
  rename_i newer
  refine h.publish epoch newer (.verdict rows) rfl rfl rfl rfl rfl ?_
  intro uniform _ _ excluded
  have current : startEpoch = state.writeEpoch := (not_not.mp stands).symm
  have foreign := tallyRows_uniform (Option.some.inj uniform)
  have vectors := tallyRows_excluded excluded
  refine ⟨rows, [], state.log, rfl, by simp, ?_, ?_⟩
  · intro row member
    exact ⟨foreign row member, vectors row member⟩
  · exact (h.undisturbed scan (current ▸ epoch)).cons rfl

theorem Guarded.publishFailure (h : Guarded currentModelId state)
    (running : (state.scan scan).epoch = some startEpoch) (reason : String)
    : Guarded currentModelId (publishFailure state scan startEpoch reason) := by
  unfold EmbeddingSpace.publishFailure
  simp only
  split
  · exact h.moves ⟨rfl, rfl, rfl, rfl, rfl, rfl, rfl, rfl⟩ (noNewScan_settled state scan)
  split
  · exact h.moves ⟨rfl, rfl, rfl, rfl, rfl, rfl, rfl, rfl⟩ (noNewScan_settled state scan)
  rename_i newer
  refine h.publish running newer (.failed reason) rfl rfl rfl rfl rfl ?_
  intro _ _ error _
  cases error

-- Notes

theorem InStartOrder.note (h : InStartOrder log) (starts : event.starts = none)
    (publishes : event.publishes = none)
    : InStartOrder (event :: log) := by
  constructor
  · rw [List.filterMap_cons_none starts]
    exact h.starts
  · rw [List.filterMap_cons_none publishes]
    exact h.publishes

theorem Guarded.quiet (h : Guarded currentModelId state) (starts : event.starts = none)
    (publishes : event.publishes = none) (quiet : event.disturbs currentModelId = false)
    : Guarded currentModelId (state.record event) := by
  constructor
  · exact h.ordered.note starts publishes
  · intro other member scan started
    rcases List.mem_cons.mp member with rfl | old
    · rw [starts] at started
      cases started
    · exact h.numbered other old scan started
  · intro other member scan published
    rcases List.mem_cons.mp member with rfl | old
    · rw [publishes] at published
      cases published
    · exact h.latest other old scan published
  · exact h.bounded
  · exact h.pending
  · intro scan now
    exact (h.undisturbed scan now).cons quiet
  · intro uniform stale error excluded
    exact (h.clean uniform stale error excluded).cons quiet publishes

/-- A note that disturbs takes the epoch on, so that no scan in progress publishes a
verdict, and marks the count stale.
-/
theorem Guarded.disturb (h : Guarded currentModelId state) (starts : event.starts = none)
    (publishes : event.publishes = none) (log : after.log = event :: state.log)
    (stale : after.excludedStale = true) (epoch : after.writeEpoch = state.writeEpoch + 1)
    (seq : after.scanSeq = state.scanSeq)
    (published : after.publishedScanSeq = state.publishedScanSeq) (stages : after.scan = state.scan)
    : Guarded currentModelId after := by
  constructor
  · rw [log]
    exact h.ordered.note starts publishes
  · rw [log, seq]
    intro other member scan started
    rcases List.mem_cons.mp member with rfl | old
    · rw [starts] at started
      cases started
    · exact h.numbered other old scan started
  · rw [log, published]
    intro other member scan outcome
    rcases List.mem_cons.mp member with rfl | old
    · rw [publishes] at outcome
      cases outcome
    · exact h.latest other old scan outcome
  · rw [published, seq]
    exact h.bounded
  · rw [published, seq, epoch, stages]
    intro scan startEpoch now
    obtain ⟨known, unpublished, stands⟩ := h.pending scan startEpoch now
    exact ⟨known, unpublished, Nat.le_succ_of_le stands⟩
  · rw [epoch, stages]
    intro scan now
    obtain ⟨-, -, stands⟩ := h.pending scan _ now
    omega
  · intro _ fresh
    rw [stale] at fresh
    cases fresh

theorem Guarded.note (h : Guarded currentModelId state) (stamp : Option String)
    (previous : Option (Option StampedRow))
    : Guarded currentModelId (noteWriteStamp currentModelId state stamp previous) := by
  unfold noteWriteStamp
  simp only
  split
  · rename_i keeps
    apply h.quiet rfl rfl
    simp [GuardEvent.disturbs, keeps]
  · split
    · split
      · exact h.disturb rfl rfl rfl rfl rfl rfl rfl rfl
      · exact h.disturb rfl rfl rfl rfl rfl rfl rfl rfl
    · exact h.disturb rfl rfl rfl rfl rfl rfl rfl rfl

-- Every step

theorem Guarded.runScan (h : Guarded currentModelId state)
    : Guarded currentModelId (runScan state) := by
  unfold EmbeddingSpace.runScan
  split
  · exact h
  · exact h.start.moves ⟨rfl, rfl, rfl, rfl, rfl, rfl, rfl, rfl⟩ (fun _ _ now => now)

theorem Guarded.consult (h : Guarded currentModelId state) (now : Int)
    : Guarded currentModelId (consultGuard currentModelId state now).1 := by
  unfold consultGuard
  split
  · exact h
  simp only
  split
  · exact h.runScan
  · exact h

theorem Guarded.step {label : GuardLabel} (h : Guarded currentModelId before)
    (taken : guardStep currentModelId before label = some after)
    : Guarded currentModelId after := by
  cases label with
  | consult now =>
    cases taken
    exact h.consult now
  | recompute =>
    cases taken
    have thrown : Guarded currentModelId { before with lastScanAt := 0 } :=
      h.moves ⟨rfl, rfl, rfl, rfl, rfl, rfl, rfl, rfl⟩ (fun _ _ now => now)
    exact thrown.start
  | opens scan result =>
    simp only [guardStep, openStep] at taken
    split at taken
    · rename_i startEpoch opening
      have running : (before.scan scan).epoch = some startEpoch := by rw [opening]; rfl
      cases result with
      | opened =>
        cases taken
        refine h.moves ⟨rfl, rfl, rfl, rfl, rfl, rfl, rfl, rfl⟩ (noNewScan_goto ?_)
        intro epoch now
        exact running.trans now
      | modelUnreadable =>
        cases taken
        exact h.moves ⟨rfl, rfl, rfl, rfl, rfl, rfl, rfl, rfl⟩ (noNewScan_settled before scan)
      | tableUnavailable =>
        cases taken
        exact h.publishFailure running _
    · cases taken
  | reads scan row =>
    simp only [guardStep] at taken
    split at taken
    · rename_i startEpoch rows reading
      cases taken
      refine h.moves ⟨rfl, rfl, rfl, rfl, rfl, rfl, rfl, rfl⟩ (noNewScan_goto ?_)
      intro epoch now
      rw [reading]
      exact now
    · cases taken
  | finishes scan now =>
    simp only [guardStep] at taken
    split at taken
    · rename_i startEpoch rows reading
      cases taken
      exact h.publishVerdict reading now
    · cases taken
  | fails scan =>
    simp only [guardStep] at taken
    split at taken
    · rename_i startEpoch rows reading
      cases taken
      exact h.publishFailure (by rw [reading]; rfl) _
    · cases taken
  | clears =>
    simp only [guardStep, clearScanning] at taken
    split at taken
    · split at taken
      · cases taken
        exact h.moves ⟨rfl, rfl, rfl, rfl, rfl, rfl, rfl, rfl⟩ (fun _ _ now => now)
      · cases taken
    · cases taken
  | note stamp previous =>
    cases taken
    exact h.note stamp previous
  | noteUnreadable =>
    cases taken
    exact h.disturb rfl rfl rfl rfl rfl rfl rfl rfl

theorem guarded_initially : Guarded currentModelId loadedGuard := by
  constructor
  · exact ⟨List.Pairwise.nil, List.Pairwise.nil⟩
  · simp [loadedGuard]
  · simp [loadedGuard]
  · exact le_rfl
  · intro scan startEpoch now
    cases now
  · intro scan now
    cases now
  · intro uniform
    cases uniform

theorem guarded_of_reachable (h : (embeddingSpaceGuard currentModelId).Reachable state)
    : Guarded currentModelId state := by
  refine System.Reachable.invariant ?_ ?_ h
  · rintro start rfl
    exact guarded_initially
  · intro before label after holds taken
    exact holds.step taken

-- Answers

theorem guardSnapshot_uniform
    : (guardSnapshot currentModelId state).uniform = true
      ↔ state.uniform = some true ∧ state.lastScanError = none
        ∧ state.excludedStale = false ∧ state.excluded.getD 0 = 0 := by
  unfold guardSnapshot
  simp only
  split
  · rename_i mixed
    simp [mixed]
  split
  · rename_i failed
    simp [failed]
  split
  · rename_i stale
    simp [stale]
  split
  · rename_i uniform
    split
    · rename_i excluded
      simp only [Bool.false_eq_true, false_iff]
      omega
    · simp_all
  · rename_i uniform
    simp [uniform]

theorem latchDecision_eq (state : GuardState)
    : latchDecision state = (guardSnapshot currentModelId state).uniform := by
  rw [Bool.eq_iff_iff, guardSnapshot_uniform]
  simp only [latchDecision, Bool.and_eq_true, Bool.or_eq_true, decide_eq_true_eq,
    Bool.not_eq_true']
  cases state.excluded with
  | none => simp [and_assoc]
  | some count => simp [and_assoc]

theorem consultGuard_uniform {now : Int}
    (h : (consultGuard currentModelId state now).2.uniform = true)
    : (guardSnapshot currentModelId state).uniform = true := by
  unfold consultGuard at h
  split at h
  · exact h
  rename_i closed
  simp only at h
  split at h
  · rw [← latchDecision_eq] at h ⊢
    unfold runScan at h
    split at h <;> exact h
  · exact h

/-- A consult or a `recomputeLatch` answers uniform only from the last published outcome: a
verdict of a scan that started after every noted write that disturbs, and that read no
foreign stamp and no vector without a trusted stamp. Outcomes are published in the order
the scans started.
-/
theorem guard_fails_closed (currentModelId : String) (state : GuardState)
    (h : (embeddingSpaceGuard currentModelId).Reachable state)
    : InStartOrder state.log
      ∧ ∀ now, (consultGuard currentModelId state now).2.uniform = true
          ∨ latchDecision state = true
        → ∃ scan, LastVerdictClean currentModelId scan state.log := by
  have guarded := guarded_of_reachable h
  refine ⟨guarded.ordered, ?_⟩
  intro now answered
  have uniform : (guardSnapshot currentModelId state).uniform = true := by
    rcases answered with consulted | recomputed
    · exact consultGuard_uniform consulted
    · exact latchDecision_eq state ▸ recomputed
  obtain ⟨verdict, error, stale, excluded⟩ := guardSnapshot_uniform.mp uniform
  exact ⟨state.publishedScanSeq, guarded.clean verdict stale error excluded⟩

-- Runs

def nomic : String := "gguf:nomic-embed-text"

def nomicRow : StampedRow where
  embeddingModel := some (.str nomic)
  embedding := .typedArray

/-- The pre-warm's scan over one row of the current space. -/
def prewarm : List GuardLabel :=
  [.recompute, .opens 1 .opened, .reads 1 nomicRow, .finishes 1 1000]

/-- A trusted stamp that no stored row carries yet is noted after the scan, and the guard
goes on answering uniform from it.
-/
theorem new_trusted_stamp_keeps_uniform
    : some "nomic-embed-text" ∉ [nomicRow].map StampedRow.raw
      ∧ ∃ state, (embeddingSpaceGuard nomic).Reachable state
        ∧ state.log = [.noted (some "nomic-embed-text") (some none) true,
            .published 1 (.verdict [nomicRow]), .started 1]
        ∧ (consultGuard nomic state 2000).2.uniform = true := by
  refine ⟨by decide, ?_⟩
  have final
      : ((embeddingSpaceGuard nomic).run loadedGuard
          (prewarm ++ [.note (some "nomic-embed-text") (some none)])).map
          (fun state => (state.log, (consultGuard nomic state 2000).2.uniform))
        = some ([.noted (some "nomic-embed-text") (some none) true,
            .published 1 (.verdict [nomicRow]), .started 1], true) := by
    decide
  obtain ⟨state, executed, read⟩ := Option.map_eq_some_iff.mp final
  have log := congrArg Prod.fst read
  have uniform := congrArg Prod.snd read
  exact ⟨state, System.reachable_of_run rfl executed, log, uniform⟩

/-- The guard answers uniform after the pre-warm, from its scan. -/
theorem prewarmed_guard_uniform
    : ∃ state, (embeddingSpaceGuard nomic).Reachable state ∧ InStartOrder state.log
      ∧ (consultGuard nomic state 2000).2.uniform = true
      ∧ ∃ scan, LastVerdictClean nomic scan state.log := by
  have final
      : ((embeddingSpaceGuard nomic).run loadedGuard prewarm).map
          (fun state => (consultGuard nomic state 2000).2.uniform)
        = some true := by
    decide
  obtain ⟨state, executed, uniform⟩ := Option.map_eq_some_iff.mp final
  have reached : (embeddingSpaceGuard nomic).Reachable state :=
    System.reachable_of_run rfl executed
  obtain ⟨ordered, answers⟩ := guard_fails_closed nomic state reached
  exact ⟨state, reached, ordered, uniform, answers 2000 (Or.inl uniform)⟩

end Flair.EmbeddingSpace
