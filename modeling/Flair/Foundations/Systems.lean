import Mathlib.Logic.Relation

/-! Labelled transition systems with an executable step, their runs, and the rules that
carry an invariant from one step to a whole run. A guard restricts a run to steps that
meet a condition on the state before the step.
-/

namespace Transition

universe u v

/-- A transition system: its initial states and what each label does to a state. A label
that is not enabled has no next state.
-/
structure System (State : Type u) (Label : Type v) where
  initial : State → Prop
  step : State → Label → Option State

abbrev Guard (State : Type u) (Label : Type v) := State → Label → Prop

namespace System

variable {State : Type u} {Label : Type v} (system : System State Label)

def StepUnder (guard : Guard State Label) (before after : State) : Prop :=
  ∃ label, guard before label ∧ system.step before label = some after

def ReachesUnder (guard : Guard State Label) : State → State → Prop :=
  Relation.ReflTransGen (system.StepUnder guard)

def Reaches : State → State → Prop := system.ReachesUnder (fun _ _ => True)

def ReachableUnder (guard : Guard State Label) (state : State) : Prop :=
  ∃ start, system.initial start ∧ system.ReachesUnder guard start state

def Reachable (state : State) : Prop := system.ReachableUnder (fun _ _ => True) state

/-- Execute a list of labels; `none` when one of them is not enabled. -/
def run : State → List Label → Option State
  | state, [] => some state
  | state, label :: rest => (system.step state label).bind (fun next => run next rest)

def runUnder (allows : State → Label → Bool) : State → List Label → Option State
  | state, [] => some state
  | state, label :: rest =>
    if allows state label
    then (system.step state label).bind (fun next => runUnder allows next rest)
    else none

variable {system} {guard : Guard State Label}

variable {before after : State}

theorem ReachesUnder.mono {weaker : Guard State Label} (h : system.ReachesUnder guard before after)
    (implied : ∀ state label, guard state label → weaker state label)
    : system.ReachesUnder weaker before after := by
  refine Relation.ReflTransGen.mono ?_ _ _ h
  rintro state next ⟨label, allowed, taken⟩
  exact ⟨label, implied state label allowed, taken⟩

theorem ReachesUnder.reaches (h : system.ReachesUnder guard before after)
    : system.Reaches before after :=
  h.mono (fun _ _ _ => trivial)

variable {state : State}

theorem ReachableUnder.reachable (h : system.ReachableUnder guard state)
    : system.Reachable state := by
  obtain ⟨start, initial, run⟩ := h
  exact ⟨start, initial, run.reaches⟩

theorem ReachableUnder.mono {weaker : Guard State Label} (h : system.ReachableUnder guard state)
    (implied : ∀ state label, guard state label → weaker state label)
    : system.ReachableUnder weaker state := by
  obtain ⟨start, initial, run⟩ := h
  exact ⟨start, initial, ReachesUnder.mono run implied⟩

theorem ReachableUnder.extend (h : system.ReachableUnder guard before)
    (more : system.ReachesUnder guard before after)
    : system.ReachableUnder guard after := by
  obtain ⟨start, initial, run⟩ := h
  exact ⟨start, initial, run.trans more⟩

theorem ReachesUnder.single {label : Label} (allowed : guard before label)
    (taken : system.step before label = some after)
    : system.ReachesUnder guard before after :=
  Relation.ReflTransGen.single ⟨label, allowed, taken⟩

theorem Reachable.next (h : system.Reachable before) (label : Label)
    (taken : system.step before label = some after)
    : system.Reachable after :=
  h.extend (ReachesUnder.single trivial taken)

theorem ReachesUnder.preserves {property : State → Prop}
    (kept : ∀ before label after, property before → guard before label
      → system.step before label = some after → property after)
    {before after : State} (h : system.ReachesUnder guard before after)
    (start : property before)
    : property after := by
  induction h with
  | refl => exact start
  | tail _ last ih =>
    obtain ⟨label, allowed, taken⟩ := last
    exact kept _ label _ ih allowed taken

theorem ReachableUnder.invariant {property : State → Prop}
    (initially : ∀ state, system.initial state → property state)
    (kept : ∀ before label after, property before → guard before label
      → system.step before label = some after → property after)
    {state : State} (h : system.ReachableUnder guard state)
    : property state := by
  obtain ⟨start, initial, run⟩ := h
  exact run.preserves kept (initially start initial)

theorem Reachable.invariant {property : State → Prop}
    (initially : ∀ state, system.initial state → property state)
    (kept : ∀ before label after, property before
      → system.step before label = some after → property after)
    {state : State} (h : system.Reachable state)
    : property state :=
  ReachableUnder.invariant initially
    (fun before label after holds _ taken => kept before label after holds taken) h

theorem ReachesUnder.under {property : State → Prop} {other : Guard State Label}
    (kept : ∀ before label after, property before → guard before label
      → system.step before label = some after → property after)
    (implied : ∀ state label, property state → guard state label → other state label)
    (h : system.ReachesUnder guard before after) (start : property before)
    : system.ReachesUnder other before after := by
  have both : property after ∧ system.ReachesUnder other before after := by
    induction h with
    | refl => exact ⟨start, Relation.ReflTransGen.refl⟩
    | tail _ last ih =>
      obtain ⟨holds, reached⟩ := ih
      obtain ⟨label, allowed, taken⟩ := last
      exact ⟨kept _ label _ holds allowed taken,
        reached.trans (ReachesUnder.single (implied _ label holds allowed) taken)⟩
  exact both.2

theorem ReachableUnder.under {property : State → Prop} {other : Guard State Label}
    (initially : ∀ state, system.initial state → property state)
    (kept : ∀ before label after, property before → guard before label
      → system.step before label = some after → property after)
    (implied : ∀ state label, property state → guard state label → other state label)
    (h : system.ReachableUnder guard state)
    : system.ReachableUnder other state := by
  obtain ⟨start, initial, run⟩ := h
  exact ⟨start, initial, run.under kept implied (initially start initial)⟩

variable {labels : List Label}

theorem reachesUnder_of_run (allowed : ∀ label ∈ labels, ∀ state, guard state label)
    (h : system.run before labels = some after)
    : system.ReachesUnder guard before after := by
  induction labels generalizing before with
  | nil =>
    cases h
    exact Relation.ReflTransGen.refl
  | cons label rest ih =>
    obtain ⟨next, taken, more⟩ := Option.bind_eq_some_iff.mp h
    have now := allowed label List.mem_cons_self before
    have later := ih (fun other member => allowed other (List.mem_cons_of_mem _ member)) more
    exact (ReachesUnder.single now taken).trans later

theorem reachesUnder_of_runUnder {allows : State → Label → Bool}
    (h : system.runUnder allows before labels = some after)
    : system.ReachesUnder (fun state label => allows state label = true) before after := by
  induction labels generalizing before with
  | nil =>
    cases h
    exact Relation.ReflTransGen.refl
  | cons label rest ih =>
    simp only [runUnder, Option.ite_none_right_eq_some] at h
    obtain ⟨allowed, executed⟩ := h
    obtain ⟨next, taken, more⟩ := Option.bind_eq_some_iff.mp executed
    have first : system.ReachesUnder (fun state label => allows state label = true)
        before next :=
      ReachesUnder.single allowed taken
    exact first.trans (ih more)

theorem reaches_of_run (h : system.run before labels = some after)
    : system.Reaches before after :=
  reachesUnder_of_run (fun _ _ _ => trivial) h

theorem reachable_of_run {start : State} (initial : system.initial start)
    (h : system.run start labels = some state)
    : system.Reachable state :=
  ⟨start, initial, reaches_of_run h⟩

end System

end Transition
