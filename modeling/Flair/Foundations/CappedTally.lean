import Mathlib.Data.Finset.Card

/-! A list of items kept beside a count of them all, so that the list may be cut short without
the items cut off being lost. Rules for what such a tally still covers after each operation.
-/

namespace Tallying

universe u

structure Tally (Item : Type u) where
  ids : List Item
  count : Nat
deriving DecidableEq

namespace Tally

variable {Item : Type u}

def empty : Tally Item where
  ids := []
  count := 0

/-- How many items are counted without being named. -/
def unlisted (tally : Tally Item) : Nat := tally.count - tally.ids.length

def cap (limit : Nat) (tally : Tally Item) : Tally Item :=
  { tally with ids := tally.ids.take limit }

def relist (tally : Tally Item) (ids : List Item) : Tally Item where
  ids
  count := ids.length + tally.unlisted

variable [DecidableEq Item]

/-- Every item owed is named or has its place in the unnamed remainder. A tally of nothing owed
may say anything.
-/
def Covers (tally : Tally Item) (owed : Finset Item) : Prop :=
  owed = ∅ ∨ (owed \ tally.ids.toFinset).card + tally.ids.length ≤ tally.count

variable {tally : Tally Item} {owed fewer : Finset Item}

theorem covers_none : tally.Covers ∅ := .inl rfl

theorem Covers.beyond (h : tally.Covers owed)
    : (owed \ tally.ids.toFinset).card ≤ tally.unlisted := by
  rcases h with rfl | fits
  · simp
  · exact Nat.le_sub_of_add_le fits

theorem Covers.card_le (h : tally.Covers owed) : owed.card ≤ tally.count := by
  rcases h with rfl | fits
  · simp
  have split := Finset.card_sdiff_add_card_inter owed tally.ids.toFinset
  have named := (Finset.card_le_card (@Finset.inter_subset_right _ _ owed _)).trans
    (List.toFinset_card_le tally.ids)
  omega

theorem Covers.eq_empty (h : tally.Covers owed) (nothing : tally.count = 0) : owed = ∅ := by
  have none := h.card_le
  rw [nothing] at none
  exact Finset.card_eq_zero.mp (Nat.le_zero.mp none)

theorem Covers.mono (h : tally.Covers owed) (subset : fewer ⊆ owed) : tally.Covers fewer := by
  rcases h with rfl | fits
  · exact .inl (Finset.subset_empty.mp subset)
  · exact .inr ((Nat.add_le_add_right
      (Finset.card_le_card (Finset.sdiff_subset_sdiff subset (Finset.Subset.refl _))) _).trans
      fits)

theorem Covers.relist (h : tally.Covers owed) {now : Finset Item} {ids : List Item}
    (kept : ∀ item ∈ now, item ∈ ids ∨ item ∈ owed ∧ item ∉ tally.ids)
    : (tally.relist ids).Covers now := by
  have beyond : now \ ids.toFinset ⊆ owed \ tally.ids.toFinset := by
    intro item member
    obtain ⟨owes, unnamed⟩ := Finset.mem_sdiff.mp member
    rcases kept item owes with named | before
    · exact absurd (List.mem_toFinset.mpr named) unnamed
    · exact Finset.mem_sdiff.mpr ⟨before.1, fun named => before.2 (List.mem_toFinset.mp named)⟩
  have bound := (Finset.card_le_card beyond).trans h.beyond
  refine .inr ?_
  rw [Tally.relist]
  dsimp only
  omega

theorem Covers.cap (h : tally.Covers owed) (limit : Nat) : (tally.cap limit).Covers owed := by
  rcases h with rfl | fits
  · exact covers_none
  have beyond : owed \ (tally.ids.take limit).toFinset
      ⊆ (owed \ tally.ids.toFinset) ∪ (tally.ids.drop limit).toFinset := by
    intro item member
    obtain ⟨owes, unnamed⟩ := Finset.mem_sdiff.mp member
    by_cases named : item ∈ tally.ids
    · rw [← List.take_append_drop limit tally.ids, List.mem_append] at named
      rcases named with here | later
      · exact absurd (List.mem_toFinset.mpr here) unnamed
      · exact Finset.mem_union_right _ (List.mem_toFinset.mpr later)
    · exact Finset.mem_union_left _
        (Finset.mem_sdiff.mpr ⟨owes, fun found => named (List.mem_toFinset.mp found)⟩)
  have bound := (Finset.card_le_card beyond).trans (Finset.card_union_le _ _)
  have cut := List.toFinset_card_le (tally.ids.drop limit)
  have parts : (tally.ids.take limit).length + (tally.ids.drop limit).length
      = tally.ids.length := by
    rw [← List.length_append, List.take_append_drop]
  refine .inr ?_
  rw [Tally.cap]
  dsimp only
  omega

end Tally

end Tallying
