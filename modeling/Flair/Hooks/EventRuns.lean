import Flair.Hooks.Settings

/-! Events of a settings object handled one after another: what each step does to its own
event's groups is what the whole run does to them.
-/

namespace Flair.Hooks

open Dynamic Settings

inductive HookDeltaAction where
  | add
  | update
  | remove
  | noop
deriving DecidableEq

abbrev EventStep := String → Settings → HookDeltaAction → Settings → Prop

inductive EventRun (step : EventStep)
    : List String → Settings → List HookDeltaAction → Settings → Prop
  | nil (settings : Settings) : EventRun step [] settings [] settings
  | cons {event : String} {events : List String} {settings middle next : Settings}
      {action : HookDeltaAction} {actions : List HookDeltaAction}
      (here : step event settings action middle) (later : EventRun step events middle actions next)
      : EventRun step (event :: events) settings (action :: actions) next

def mergeEvents (merge : String → Settings → HookDeltaAction × Settings)
    : List String → Settings → List (String × HookDeltaAction) × Settings
  | [], settings => ([], settings)
  | event :: events, settings =>
    let (action, middle) := merge event settings
    let (actions, next) := mergeEvents merge events middle
    ((event, action) :: actions, next)

def anyChanged (actions : List (String × HookDeltaAction)) : Bool :=
  actions.any fun action => action.2 ≠ .noop

/-- A step that only touches its own event, and reports when it changes anything. -/
structure EventStep.Confined (step : EventStep) : Prop where
  frame : ∀ {event settings action next}, step event settings action next →
    ∀ other ≠ event, next.eventGroups other = settings.eventGroups other
  kept : ∀ {event settings next}, step event settings .noop next → next = settings

variable {step : EventStep} {events among : List String} {settings next : Settings}
  {actions : List HookDeltaAction}

theorem eventRun_mergeEvents (merge : String → Settings → HookDeltaAction × Settings)
    (events : List String) (settings : Settings)
    : EventRun (fun event settings action next => merge event settings = (action, next)) events
        settings ((mergeEvents merge events settings).1.map Prod.snd)
        (mergeEvents merge events settings).2 := by
  induction events generalizing settings with
  | nil => exact .nil settings
  | cons event events ih => exact .cons rfl (ih _)

theorem EventRun.frame (confined : step.Confined)
    (run : EventRun step events settings actions next) {other : String} (apart : other ∉ events)
    : next.eventGroups other = settings.eventGroups other := by
  induction run with
  | nil => rfl
  | cons here later ih =>
    rw [List.mem_cons, not_or] at apart
    exact (ih apart.2).trans (confined.frame here _ apart.1)

theorem EventRun.kept (confined : step.Confined)
    (run : EventRun step events settings actions next) (noops : ∀ action ∈ actions, action = .noop)
    : next = settings := by
  induction run with
  | nil => rfl
  | cons here later ih =>
    rw [List.forall_mem_cons] at noops
    obtain ⟨rfl, noops⟩ := noops
    exact (ih noops).trans (confined.kept here)

theorem EventRun.preserved {α : Type} (run : EventRun step events settings actions next)
    (view : Settings → α)
    (each : ∀ {event settings action next}, step event settings action next → event ∈ among →
      view next = view settings)
    (inside : events ⊆ among)
    : view next = view settings := by
  induction run with
  | nil => rfl
  | cons here later ih =>
    rw [List.cons_subset] at inside
    exact (ih inside.2).trans (each here inside.1)

theorem EventRun.preserved_of_typed {α : Type}
    (run : EventRun step events settings actions next) (view : Settings → α)
    (typing : ∀ {event settings action next}, step event settings action next →
      ∀ other, settings.Typed other → next.Typed other)
    (each : ∀ {event settings action next}, step event settings action next → event ∈ among →
      settings.Typed event → view next = view settings)
    (inside : events ⊆ among)
    (typed : ∀ event ∈ events, settings.Typed event)
    : view next = view settings := by
  induction run with
  | nil => rfl
  | cons here later ih =>
    rw [List.cons_subset] at inside
    rw [List.forall_mem_cons] at typed
    rw [ih inside.2 fun event member => typing here _ (typed.2 event member),
      each here inside.1 typed.1]

theorem EventRun.at_event (confined : step.Confined)
    (run : EventRun step events settings actions next) (once : events.Nodup) {event : String}
    (member : event ∈ events)
    : ∃ before action after, step event before action after
      ∧ before.eventGroups event = settings.eventGroups event
      ∧ next.eventGroups event = after.eventGroups event := by
  induction run with
  | nil => cases member
  | cons here later ih =>
    rw [List.nodup_cons] at once
    rcases List.mem_cons.mp member with rfl | inside
    · exact ⟨_, _, _, here, rfl, later.frame confined once.1⟩
    · obtain ⟨before, action, after, there, same, final⟩ := ih once.2 inside
      have apart := ne_of_mem_of_not_mem inside once.1
      exact ⟨before, action, after, there, same.trans (confined.frame here _ apart), final⟩

theorem anyChanged_eq_false {actions : List (String × HookDeltaAction)}
    : anyChanged actions = false ↔ ∀ action ∈ actions.map Prod.snd, action = .noop := by
  rw [List.forall_mem_map]
  simp [anyChanged]

theorem mergeEvents_settled {merge : String → Settings → HookDeltaAction × Settings}
    (settled : ∀ event ∈ events, merge event settings = (.noop, settings))
    : mergeEvents merge events settings = (events.map fun event => (event, .noop), settings) := by
  induction events with
  | nil => rfl
  | cons event events ih =>
    rw [List.forall_mem_cons] at settled
    simp only [mergeEvents, settled.1, ih settled.2, List.map_cons]

end Flair.Hooks
