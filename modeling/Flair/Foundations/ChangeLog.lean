import Mathlib.Data.List.Basic

/-! Events that write the keys of a store, in the order they are applied. What a key holds
after them is settled by the last event that writes it.
-/

namespace ChangeLog

universe u v w

variable {Event : Type u} {Key : Type v} {Value : Type w}
variable (effect : Event → Key → Option Value)

def settle (key : Key) (start : Value) (events : List Event) : Value :=
  events.foldl (fun value event => (effect event key).getD value) start

def Touched (key : Key) (events : List Event) : Prop :=
  ∃ event ∈ events, (effect event key).isSome

variable {effect} {key : Key} {start : Value} {event : Event} {events : List Event}

@[simp] theorem settle_nil : settle effect key start [] = start := rfl

@[simp] theorem settle_cons
    : settle effect key start (event :: events)
      = settle effect key ((effect event key).getD start) events :=
  rfl

theorem settle_append (earlier later : List Event)
    : settle effect key start (earlier ++ later)
      = settle effect key (settle effect key start earlier) later :=
  List.foldl_append

theorem settle_of_touched (touched : Touched effect key events) (start other : Value)
    : settle effect key start events = settle effect key other events := by
  induction events generalizing start other with
  | nil =>
    obtain ⟨event, member, -⟩ := touched
    cases member
  | cons first rest ih =>
    rw [settle_cons, settle_cons]
    cases written : effect first key with
    | some value => rfl
    | none =>
      apply ih
      obtain ⟨event, member, writes⟩ := touched
      rcases List.mem_cons.mp member with rfl | later
      · rw [written] at writes
        cases writes
      · exact ⟨event, later, writes⟩

theorem settle_of_untouched (untouched : ¬ Touched effect key events)
    : settle effect key start events = start := by
  induction events generalizing start with
  | nil => rfl
  | cons first rest ih =>
    have silent : effect first key = none := by
      cases written : effect first key with
      | none => rfl
      | some value => exact absurd ⟨first, by simp, by simp [written]⟩ untouched
    rw [settle_cons, silent, Option.getD_none]
    apply ih
    intro ⟨event, member, writes⟩
    exact untouched ⟨event, List.mem_cons_of_mem _ member, writes⟩

theorem settle_again {value : Value} (settled : settle effect key start events = value)
    : settle effect key value events = value := by
  by_cases touched : Touched effect key events
  · rw [settle_of_touched touched value start, settled]
  · exact settle_of_untouched touched

end ChangeLog
