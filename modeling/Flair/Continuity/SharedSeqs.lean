import Flair.Continuity.SeqRuns

/-! When the continuity seqs of a pair are its own: in runs whose bumps rename over the state
they have read and whose pairs have file names of their own. Runs that break each of the
three promises otherwise.
-/

namespace Flair.Continuity

open Transition

/-- In every run whose bumps rename over the state they have read, for pairs with file names
of their own: no seq is returned twice for a pair between two seedings, and none at all when
no seeding follows a return; a step that is no seeding's truncation keeps or raises every
stored seq; and the file that a process of a pair reads or replaces holds that pair's state.
-/
theorem seqs_unshared_when_serial (dir : SessionDir)
    : (continuity.ReachableUnder Serial dir → ∀ pair, (returnedSince pair dir.log).Nodup)
      ∧ (continuity.ReachableUnder
          (fun before label => Serial before label ∧ SeedsFirst before label) dir
        → ∀ pair, (returned pair dir.log).Nodup)
      ∧ (∀ label next, continuity.ReachableUnder Serial dir → Serial dir label
        → continuity.step dir label = some next → (∀ seed opened, label ≠ .open seed opened)
        → ∀ path state, dir.content path = .holds state
          → ∃ later, next.content path = .holds later ∧ state.seq ≤ later.seq)
      ∧ (continuity.ReachableUnder Serial dir → ∀ pair, Used dir pair
        → ∀ state, dir.content (statePath pair) = .holds state → state.pair = pair) := by
  refine ⟨?_, ?_, ?_, ?_⟩
  · intro run
    exact (continuity_invariant run).distinct
  · intro run pair
    have serially := System.ReachableUnder.mono run fun _ _ both => both.1
    rw [returned_eq_of_seedsFirst run pair]
    exact (continuity_invariant serially).distinct pair
  · intro label next run serial taken bump path state held
    exact seq_kept (continuity_invariant run) serial taken bump held
  · intro run pair used state held
    exact (continuity_invariant run).own used held

-- Runs

def emptyDir : SessionDir where
  files _ := { inode := 0, content := .absent }
  call _ := .idle
  seed _ := .idle
  log := []

theorem emptyDir_initial : continuity.initial emptyDir :=
  ⟨fun _ => rfl, fun _ => rfl, fun _ => rfl, rfl⟩

/-- Only processes of one pair run, and each rename finds the state its bump has read. -/
def takesTurns (pair : Pair) (dir : SessionDir) : FileLabel → Bool
  | .begin _ other | .beginSeed _ other _ _ _ => decide (other = pair)
  | .open _ _ => decide (returned pair dir.log = [])
  | .rename call true =>
    match dir.call call with
    | .staged other current _ => decide (dir.content (statePath other) = .holds current)
    | _ => false
  | _ => true

def OnlyPair (pair : Pair) (dir : SessionDir) : Prop :=
  (∀ call other, (dir.call call).pair? = some other → other = pair)
    ∧ ∀ seed other, (dir.seed seed).pair? = some other → other = pair

theorem OnlyPair.gotoCall {pair other : Pair} {dir : SessionDir} (only : OnlyPair pair dir)
    (call : Nat) {stage : CallStage} (its : stage.pair? = some other) (same : other = pair)
    : OnlyPair pair (dir.gotoCall call stage) := by
  refine ⟨?_, only.2⟩
  intro at_ mine found
  rw [call_gotoCall] at found
  split at found
  · exact (Option.some.inj (found.symm.trans its)).trans same
  · exact only.1 at_ mine found

theorem OnlyPair.gotoSeed {pair other : Pair} {dir : SessionDir} (only : OnlyPair pair dir)
    (seed : Nat) {stage : SeedStage} (its : stage.pair? = some other) (same : other = pair)
    : OnlyPair pair (dir.gotoSeed seed stage) := by
  refine ⟨only.1, ?_⟩
  intro at_ mine found
  rw [seed_gotoSeed] at found
  split at found
  · exact (Option.some.inj (found.symm.trans its)).trans same
  · exact only.2 at_ mine found

theorem onlyPair_keeps {pair : Pair} {dir next : SessionDir} {label : FileLabel}
    (only : OnlyPair pair dir) (turn : takesTurns pair dir label = true)
    (taken : continuity.step dir label = some next)
    : OnlyPair pair next := by
  rcases Option.or_eq_some_iff.mp taken with call | ⟨-, seed⟩
  · cases label with
    | begin call_ other =>
      simp only [callStep] at call
      split at call
      · split at call
        · cases call
          exact only.gotoCall call_ rfl (of_decide_eq_true turn)
        · contradiction
      · contradiction
    | read call_ readable =>
      simp only [callStep] at call
      split at call
      case h_1 other started =>
        cases call
        exact only.gotoCall call_ (pair?_afterRead _ _ _) (only.1 call_ other (by rw [started]; rfl))
      · contradiction
    | stage call_ _ _ | rename call_ _ =>
      simp only [callStep] at call
      split at call
      case h_1 stage =>
        split at call <;> cases call <;>
          refine OnlyPair.gotoCall ?_ call_ rfl (only.1 call_ _ (by rw [stage]; rfl)) <;>
          exact only
      · contradiction
    | _ => contradiction
  · cases label with
    | beginSeed seed_ other _ _ _ =>
      simp only [seedStep] at seed
      split at seed
      · split at seed
        · cases seed
          exact only.gotoSeed seed_ rfl (of_decide_eq_true turn)
        · contradiction
      · contradiction
    | «open» seed_ _ | write seed_ _ =>
      simp only [seedStep] at seed
      split at seed
      case h_1 stage =>
        split at seed <;> cases seed <;>
          refine OnlyPair.gotoSeed ?_ seed_ rfl (only.2 seed_ _ (by rw [stage]; rfl)) <;>
          exact only
      · contradiction
    | _ => contradiction

theorem serial_of_takesTurns {pair : Pair} {dir : SessionDir}
    (run : continuity.ReachableUnder (fun dir label => takesTurns pair dir label = true) dir)
    : continuity.ReachableUnder
        (fun before label => Serial before label ∧ SeedsFirst before label) dir := by
  have start : ∀ dir, continuity.initial dir → OnlyPair pair dir := by
    rintro start ⟨-, idle, unseeded, -⟩
    refine ⟨fun call other its => ?_, fun seed other its => ?_⟩
    · rw [idle call] at its
      contradiction
    · rw [unseeded seed] at its
      contradiction
  refine run.under start ?_ ?_
  · intro before label after only turn taken
    exact onlyPair_keeps only turn taken
  intro state label only turn
  have own : ∀ other, other = pair → OwnName state other := by
    rintro other rfl mine (⟨call, its⟩ | ⟨seed, its⟩) -
    · exact only.1 call mine its
    · exact only.2 seed mine its
  cases label with
  | begin _ other | beginSeed _ other _ _ _ =>
    exact ⟨own other (of_decide_eq_true turn), trivial⟩
  | rename call renamed =>
    refine ⟨?_, trivial⟩
    cases renamed with
    | false => trivial
    | true =>
      intro other current next staged
      simp only [takesTurns, staged, decide_eq_true_eq] at turn
      exact turn
  | «open» seed opened =>
    refine ⟨trivial, ?_⟩
    intro other state started
    obtain rfl := only.2 seed other (by rw [started]; rfl)
    exact of_decide_eq_true turn
  | read _ _ | stage _ _ _ | write _ _ => exact ⟨trivial, trivial⟩

def sessionPair : Pair := ⟨"agent", "session"⟩

def seedAs (pair : Pair) : List FileLabel :=
  [.beginSeed 0 pair "cs-1" "p-1" "t0", .open 0 true, .write 0 true]

def bumpsInTurn : List FileLabel :=
  seedAs sessionPair ++ [
    .begin 1 sessionPair, .read 1 true, .stage 1 "t1" true, .rename 1 true,
    .begin 2 sessionPair, .read 2 true, .stage 2 "t2" true, .rename 2 true]

/-- Witness: two bumps in turn return two seqs. -/
theorem seqs_unshared_when_serial_inTurn
    : ∃ dir, continuity.runUnder (takesTurns sessionPair) emptyDir bumpsInTurn = some dir
        ∧ returned sessionPair dir.log = [2, 1] ∧ (returned sessionPair dir.log).Nodup := by
  have runs : (continuity.runUnder (takesTurns sessionPair) emptyDir bumpsInTurn).map
      (fun dir => returned sessionPair dir.log) = some [2, 1] := by
    decide
  obtain ⟨dir, run, both⟩ := Option.map_eq_some_iff.mp runs
  have reached := serial_of_takesTurns
    ⟨emptyDir, emptyDir_initial, System.reachesUnder_of_runUnder run⟩
  exact ⟨dir, run, both, (seqs_unshared_when_serial dir).2.1 reached sessionPair⟩

def bumpsAtOnce : List FileLabel :=
  seedAs sessionPair ++ [
    .begin 1 sessionPair, .begin 2 sessionPair, .read 1 true, .read 2 true,
    .stage 1 "t1" true, .stage 2 "t2" true, .rename 1 true, .rename 2 true]

def slowBump : List FileLabel :=
  seedAs sessionPair ++ [
    .begin 3 sessionPair, .read 3 true, .stage 3 "t3" true,
    .begin 1 sessionPair, .read 1 true, .stage 1 "t1" true, .rename 1 true,
    .begin 2 sessionPair, .read 2 true, .stage 2 "t2" true, .rename 2 true]

def dottedAgent : Pair := ⟨"a.b", "c"⟩

def dottedSession : Pair := ⟨"a", "b.c"⟩

/-- Bumps at once return one seq twice; a slow bump lowers the stored seq; and a bump of one
pair replaces the state of another whose joined file name is the same.
-/
theorem seqs_shared
    : (∃ dir, continuity.Reachable dir ∧ returned sessionPair dir.log = [1, 1])
      ∧ (∃ dir next state later, continuity.Reachable dir
        ∧ callStep dir (.rename 3 true) = some next
        ∧ dir.content (statePath sessionPair) = .holds state
        ∧ next.content (statePath sessionPair) = .holds later ∧ later.seq < state.seq)
      ∧ ∃ dir next state, continuity.Reachable dir
        ∧ callStep dir (.rename 1 true) = some next
        ∧ (dir.call 1).pair? = some dottedSession
        ∧ dir.content (statePath dottedSession) = .holds state ∧ state.pair = dottedAgent
        ∧ next.content (statePath dottedSession) ≠ dir.content (statePath dottedSession) := by
  refine ⟨?twice, ?lowered, ?foreign⟩
  case twice =>
    have runs : (continuity.run emptyDir bumpsAtOnce).map
        (fun dir => returned sessionPair dir.log) = some [1, 1] := by
      decide
    obtain ⟨dir, run, same⟩ := Option.map_eq_some_iff.mp runs
    exact ⟨dir, System.reachable_of_run emptyDir_initial run, same⟩
  case lowered =>
    have runs : (continuity.run emptyDir slowBump).any (fun dir =>
        (callStep dir (.rename 3 true)).any (fun next =>
          match dir.content (statePath sessionPair), next.content (statePath sessionPair) with
          | .holds state, .holds later => decide (later.seq < state.seq)
          | _, _ => false)) = true := by
      decide
    obtain ⟨dir, run, checks⟩ := (Option.any_eq_true _ _).mp runs
    obtain ⟨next, taken, checks⟩ := (Option.any_eq_true _ _).mp checks
    split at checks
    case h_1 state later held after =>
      exact ⟨dir, next, state, later, System.reachable_of_run emptyDir_initial run, taken, held,
        after, of_decide_eq_true checks⟩
    · contradiction
  case foreign =>
    have runs : (continuity.run emptyDir (seedAs dottedAgent ++
        [.begin 1 dottedSession, .read 1 true, .stage 1 "t1" true])).any (fun dir =>
          (callStep dir (.rename 1 true)).any (fun next =>
            match dir.content (statePath dottedSession) with
            | .holds state => decide (state.pair = dottedAgent
                ∧ (dir.call 1).pair? = some dottedSession
                ∧ next.content (statePath dottedSession) ≠ dir.content (statePath dottedSession))
            | _ => false)) = true := by
      decide
    obtain ⟨dir, run, checks⟩ := (Option.any_eq_true _ _).mp runs
    obtain ⟨next, taken, checks⟩ := (Option.any_eq_true _ _).mp checks
    split at checks
    case h_1 state held =>
      obtain ⟨owner, caller, replaced⟩ := of_decide_eq_true checks
      exact ⟨dir, next, state, System.reachable_of_run emptyDir_initial run, taken, caller, held,
        owner, replaced⟩
    · contradiction

end Flair.Continuity
