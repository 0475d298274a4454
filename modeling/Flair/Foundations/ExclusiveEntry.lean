import Mathlib.Logic.Function.Basic

/-! A directory entry that is created only where there is none and removed by whoever created
it, as a lock over a value that its holders replace. Rules for who holds the entry, and for
the chain of replacements made under it.
-/

namespace ExclusiveEntry

universe u v w

variable {Owner : Type u} {Stage : Type v} {Value : Type w}

-- The entry

def Guards (entry : Option Owner) (inside : Owner → Prop) : Prop :=
  ∀ owner, inside owner → entry = some owner

variable {entry : Option Owner} {inside next : Owner → Prop} {owner another : Owner}

theorem Guards.unique (h : Guards entry inside) (one : inside owner) (other : inside another)
    : owner = another :=
  Option.some.inj ((h owner one).symm.trans (h another other))

theorem Guards.mono (h : Guards entry inside) (fewer : ∀ owner, next owner → inside owner)
    : Guards entry next :=
  fun owner holds => h owner (fewer owner holds)

theorem Guards.create (h : Guards none inside)
    (only : ∀ other, next other → other = owner ∨ inside other)
    : Guards (some owner) next := by
  intro other holds
  rcases only other holds with rfl | before
  · rfl
  · cases h other before

theorem Guards.leave (h : Guards entry inside) (one : inside owner)
    (fewer : ∀ other, next other → other ≠ owner ∧ inside other) (after : Option Owner)
    : Guards after next := by
  intro other holds
  obtain ⟨apart, before⟩ := fewer other holds
  exact absurd (h.unique before one) apart

theorem Guards.clear (h : Guards (some owner) inside) (outside : ¬ inside owner)
    (after : Option Owner)
    : Guards after inside := by
  intro other holds
  obtain rfl := Option.some.inj (h other holds)
  exact absurd holds outside

-- The replacements

structure Replacement (Owner : Type u) (Value : Type w) where
  owner : Owner
  replaced : Value
  left : Value
deriving DecidableEq

def Chained : Value → List (Replacement Owner Value) → Value → Prop
  | start, [], final => final = start
  | start, first :: rest, final => first.replaced = start ∧ Chained first.left rest final

theorem Chained.append {start value : Value} {history : List (Replacement Owner Value)}
    (h : Chained start history value) (owner : Owner) (left : Value)
    : Chained start (history ++ [⟨owner, value, left⟩]) left := by
  induction history generalizing start with
  | nil => exact ⟨h, rfl⟩
  | cons first rest ih => exact ⟨h.1, ih h.2⟩

variable [DecidableEq Owner]

def madeBy (owner : Owner) (history : List (Replacement Owner Value))
    : List (Replacement Owner Value) :=
  history.filter fun replacement => decide (replacement.owner = owner)

theorem madeBy_append_self (history : List (Replacement Owner Value)) (owner : Owner)
    (replaced left : Value)
    : madeBy owner (history ++ [⟨owner, replaced, left⟩])
      = madeBy owner history ++ [⟨owner, replaced, left⟩] := by
  simp [madeBy]

theorem madeBy_append_of_ne (history : List (Replacement Owner Value)) (apart : another ≠ owner)
    (replaced left : Value)
    : madeBy owner (history ++ [⟨another, replaced, left⟩]) = madeBy owner history := by
  simp [madeBy, apart]

end ExclusiveEntry
