import Mathlib.Algebra.Ring.Parity
import Flair.Foundations.NestedWords

/-! The structural check of a claim before its promotion: a scan with a stack over the
enumerated bracket pairs, then the parity of the backticks.
-/

namespace Flair.Reflection

open NestedWords

/-- `STRUCTURAL_PAIRS`: each opener with its closer. -/
def STRUCTURAL_PAIRS : List (Char × Char) :=
  [('(', ')'), ('[', ']'), ('\x7b', '\x7d'),
    ('（', '）'), ('［', '］'), ('｛', '｝'),
    ('【', '】'), ('〔', '〕'), ('〖', '〗'),
    ('「', '」'), ('『', '』'),
    ('《', '》'), ('〈', '〉'), ('〘', '〙'), ('〚', '〛')]

def STRUCTURAL_OPENERS : List (Char × Char) := STRUCTURAL_PAIRS

def STRUCTURAL_CLOSERS : List (Char × Char) :=
  STRUCTURAL_PAIRS.map fun (opener, closer) => (closer, opener)

/-- The loop over the claim's code points. The stack's last element is the head here, and the
error is the character that is unmatched.
-/
def scanStructure (stack : List Char) : List Char → Except Char (List Char)
  | [] => .ok stack
  | ch :: rest =>
    if (STRUCTURAL_OPENERS.lookup ch).isSome then scanStructure (ch :: stack) rest
    else
      match STRUCTURAL_CLOSERS.lookup ch with
      | none => scanStructure stack rest
      | some opener =>
        match stack with
        | [] => .error ch
        | top :: below => if top = opener then scanStructure below rest else .error ch

def backtick : Char := '\x60'

def structuralImbalance (claim : String) : Option String :=
  match scanStructure [] claim.toList with
  | .error ch => some s!"unmatched '{ch}'"
  | .ok (top :: _) => some s!"unclosed '{top}'"
  | .ok [] =>
    if claim.toList.count backtick % 2 ≠ 0 then some "unbalanced backtick" else none

-- The claim's brackets and what the two tables say of them

def StructuralPair (opener closer : Char) : Prop :=
  (opener, closer) ∈ STRUCTURAL_PAIRS

def IsStructural (ch : Char) : Prop :=
  ∃ pair ∈ STRUCTURAL_PAIRS, ch = pair.1 ∨ ch = pair.2

instance : DecidablePred IsStructural := fun ch =>
  inferInstanceAs (Decidable (∃ pair ∈ STRUCTURAL_PAIRS, ch = pair.1 ∨ ch = pair.2))

/-- The text's projection onto the characters of the pairs. -/
def structuralProjection (text : List Char) : List Char :=
  text.filter fun ch => IsStructural ch

/-- No character both opens and closes. -/
theorem closer_ne_opener
    : ∀ pair ∈ STRUCTURAL_PAIRS, ∀ other ∈ STRUCTURAL_PAIRS, pair.2 ≠ other.1 := by
  decide

/-- Each closer has one opener. -/
theorem opener_unique
    : ∀ pair ∈ STRUCTURAL_PAIRS, ∀ other ∈ STRUCTURAL_PAIRS,
        pair.2 = other.2 → pair.1 = other.1 := by
  decide

theorem openers_isSome (ch : Char)
    : (STRUCTURAL_OPENERS.lookup ch).isSome ↔ ∃ closer, StructuralPair ch closer := by
  rw [List.lookup_isSome_iff]
  constructor
  · rintro ⟨⟨opener, closer⟩, member, same⟩
    obtain rfl := eq_of_beq same
    exact ⟨closer, member⟩
  · rintro ⟨closer, member⟩
    exact ⟨_, member, beq_self_eq_true ch⟩

theorem closers_isSome (ch : Char)
    : (STRUCTURAL_CLOSERS.lookup ch).isSome ↔ ∃ opener, StructuralPair opener ch := by
  rw [List.lookup_isSome_iff, STRUCTURAL_CLOSERS]
  constructor
  · rintro ⟨_, member, same⟩
    obtain ⟨⟨opener, closer⟩, listed, rfl⟩ := List.mem_map.mp member
    obtain rfl := eq_of_beq same
    exact ⟨opener, listed⟩
  · rintro ⟨opener, member⟩
    exact ⟨_, List.mem_map_of_mem member, beq_self_eq_true ch⟩

theorem structuralPair_of_closers {ch opener : Char}
    (found : STRUCTURAL_CLOSERS.lookup ch = some opener)
    : StructuralPair opener ch := by
  obtain ⟨front, back, split, -⟩ := List.lookup_eq_some_iff.mp found
  have listed : (ch, opener) ∈ STRUCTURAL_CLOSERS := by simp [split]
  obtain ⟨pair, member, spelled⟩ := List.mem_map.mp listed
  obtain ⟨rfl, rfl⟩ := Prod.mk.inj spelled
  exact member

theorem isStructural_iff (ch : Char)
    : IsStructural ch
      ↔ (∃ closer, StructuralPair ch closer) ∨ ∃ opener, StructuralPair opener ch := by
  constructor
  · rintro ⟨pair, member, rfl | rfl⟩
    · exact .inl ⟨pair.2, member⟩
    · exact .inr ⟨pair.1, member⟩
  · rintro (⟨closer, member⟩ | ⟨opener, member⟩)
    · exact ⟨_, member, .inl rfl⟩
    · exact ⟨_, member, .inr rfl⟩

-- Exactness

/-- The scan ends with an empty stack when the brackets that follow close the stack. -/
theorem scanStructure_eq_nil_iff (text stack : List Char)
    : scanStructure stack text = .ok []
      ↔ Closes StructuralPair stack (structuralProjection text) := by
  induction text generalizing stack with
  | nil => simp [scanStructure, structuralProjection]
  | cons ch rest ih =>
    by_cases opens : (STRUCTURAL_OPENERS.lookup ch).isSome
    · obtain ⟨closer, paired⟩ := (openers_isSome ch).mp opens
      have kept : structuralProjection (ch :: rest) = ch :: structuralProjection rest :=
        List.filter_cons_of_pos (by simpa using (isStructural_iff ch).mpr (.inl ⟨_, paired⟩))
      have notCloser : ∀ other, ¬ StructuralPair other ch := fun other closes =>
        closer_ne_opener _ closes _ paired rfl
      rw [kept, closes_opener notCloser, ← ih]
      simp [scanStructure, opens]
    · cases found : STRUCTURAL_CLOSERS.lookup ch with
      | none =>
        have dropped : structuralProjection (ch :: rest) = structuralProjection rest := by
          refine List.filter_cons_of_neg ?_
          rw [decide_eq_true_iff, isStructural_iff, ← openers_isSome, ← closers_isSome, found]
          simp [opens]
        rw [dropped, ← ih]
        simp [scanStructure, opens, found]
      | some opener =>
        have paired := structuralPair_of_closers found
        have kept : structuralProjection (ch :: rest) = ch :: structuralProjection rest :=
          List.filter_cons_of_pos (by simpa using (isStructural_iff ch).mpr (.inr ⟨_, paired⟩))
        have notOpener : ∀ other, ¬ StructuralPair ch other := fun other opens =>
          closer_ne_opener _ paired _ opens rfl
        rw [kept, closes_closer notOpener]
        cases stack with
        | nil => simp [scanStructure, opens, found]
        | cons top below =>
          by_cases same : top = opener
          · subst same
            simp [scanStructure, opens, found, paired, ih]
          · have other : ¬ StructuralPair top ch := fun closes =>
              same (opener_unique _ closes _ paired rfl)
            simp [scanStructure, opens, found, same, other]

/-- No problem is reported exactly for the texts whose brackets, taken alone, are well nested
and whose backticks are even in number.
-/
theorem structuralImbalance_eq_none_iff (claim : String)
    : structuralImbalance claim = none
      ↔ Nested StructuralPair (structuralProjection claim.toList)
        ∧ Even (claim.toList.count backtick) := by
  have scanned := scanStructure_eq_nil_iff claim.toList []
  rw [← Closes, ← scanned, structuralImbalance]
  split <;> simp_all [Nat.even_iff]

end Flair.Reflection
