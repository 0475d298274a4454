/-! Inevitability: every run of a step relation from a state is finite and stops only in a
final state. A rank that each step lowers gives it.
-/

namespace Transition

universe u

/-- However the relation goes on from the state, it stops, and where it stops is final. -/
inductive Settles {State : Type u} (progress : State → State → Prop) (final : State → Prop)
    : State → Prop where
  | intro {state : State} (ends : (∀ next, ¬ progress state next) → final state)
      (later : ∀ next, progress state next → Settles progress final next)
    : Settles progress final state

variable {State : Type u} {progress : State → State → Prop} {final property : State → Prop}

theorem Settles.of_rank (rank : State → Nat)
    (kept : ∀ state next, property state → progress state next → property next)
    (lowers : ∀ state next, property state → progress state next → rank next < rank state)
    (stops : ∀ state, property state → (∀ next, ¬ progress state next) → final state)
    {state : State} (start : property state)
    : Settles progress final state := by
  induction bound : rank state using Nat.strongRecOn generalizing state with
  | ind n ih =>
    refine .intro (stops state start) ?_
    intro next taken
    have below := lowers state next start taken
    rw [bound] at below
    exact ih _ below (kept state next start taken) rfl

end Transition
