/-! Words over pairs of an opener and its closer. A word is nested when its brackets pair off
without crossing; what follows some openers left open closes them from the innermost on. A scan
that keeps the open ones on a stack needs no more than how this changes with one letter.
-/

namespace NestedWords

universe u

variable {Letter : Type u}

/-- The words whose openers and closers pair off, one pair inside or after another. -/
inductive Nested (Pair : Letter → Letter → Prop) : List Letter → Prop where
  | nil : Nested Pair []
  | wrap {opener closer inner rest} (paired : Pair opener closer) (within : Nested Pair inner)
    (after : Nested Pair rest)
    : Nested Pair (opener :: (inner ++ closer :: rest))

/-- The word closes the open letters of the stack, innermost first, and is nested between. -/
def Closes (Pair : Letter → Letter → Prop) : List Letter → List Letter → Prop
  | [], word => Nested Pair word
  | opener :: below, word =>
    ∃ inner closer rest, word = inner ++ closer :: rest
      ∧ Nested Pair inner ∧ Pair opener closer ∧ Closes Pair below rest

variable {Pair : Letter → Letter → Prop} {stack word inner rest : List Letter}
  {opener closer : Letter}

theorem Closes.wrap (paired : Pair opener closer) (within : Nested Pair inner)
    (after : Closes Pair stack rest)
    : Closes Pair stack (opener :: (inner ++ closer :: rest)) := by
  cases stack with
  | nil => exact Nested.wrap paired within after
  | cons top below =>
    obtain ⟨second, last, tail, rfl, nested, closes, remaining⟩ := after
    refine ⟨opener :: (inner ++ closer :: second), last, tail, ?_, ?_, closes, remaining⟩
    · simp
    · exact Nested.wrap paired within nested

@[simp] theorem closes_nil : Closes Pair stack [] ↔ stack = [] := by
  cases stack with
  | nil => simp [Closes, Nested.nil]
  | cons top below => simp [Closes]

/-- A letter that is no closer is one more letter to close. -/
theorem closes_opener (notCloser : ∀ other, ¬ Pair other opener)
    : Closes Pair stack (opener :: word) ↔ Closes Pair (opener :: stack) word := by
  constructor
  · intro closes
    cases stack with
    | nil =>
      cases closes with
      | wrap paired within after => exact ⟨_, _, _, rfl, within, paired, after⟩
    | cons top below =>
      obtain ⟨inner, closer, rest, spelled, nested, paired, remaining⟩ := closes
      cases nested with
      | nil =>
        obtain ⟨rfl, rfl⟩ := List.cons.inj spelled
        exact absurd paired (notCloser top)
      | @wrap first last within after firstPaired withinNested afterNested =>
        obtain ⟨rfl, rfl⟩ := List.cons.inj spelled
        refine ⟨within, last, after ++ closer :: rest, by simp, withinNested, firstPaired, ?_⟩
        exact ⟨after, closer, rest, rfl, afterNested, paired, remaining⟩
  · rintro ⟨inner, closer, rest, rfl, nested, paired, remaining⟩
    exact Closes.wrap paired nested remaining

/-- A closer that is no opener closes the innermost open letter, which has to be its own. -/
theorem closes_closer (notOpener : ∀ other, ¬ Pair closer other)
    : Closes Pair stack (closer :: word)
      ↔ ∃ opener below, stack = opener :: below ∧ Pair opener closer ∧ Closes Pair below word := by
  constructor
  · intro closes
    cases stack with
    | nil =>
      cases closes with
      | wrap paired => exact absurd paired (notOpener _)
    | cons top below =>
      obtain ⟨inner, last, rest, spelled, nested, paired, remaining⟩ := closes
      cases nested with
      | nil =>
        obtain ⟨rfl, rfl⟩ := List.cons.inj spelled
        exact ⟨top, below, rfl, paired, remaining⟩
      | wrap firstPaired =>
        obtain ⟨rfl, -⟩ := List.cons.inj spelled
        exact absurd firstPaired (notOpener _)
  · rintro ⟨opener, below, rfl, paired, remaining⟩
    exact ⟨[], closer, word, rfl, .nil, paired, remaining⟩

end NestedWords
