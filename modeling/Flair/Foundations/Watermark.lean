import Mathlib.Data.Set.Insert

/-! Readers that advance a watermark over stamped items: an item behind the mark is looked
for no more, so every item behind it has to be delivered. Rules for a store that changes
and for a scan that starts from an earlier mark.
-/

namespace Watermark

universe u v

variable {Item : Type u} {Mark : Type v} {before : Mark → Mark → Prop}
  {stamp : Item → Option Mark}

def Behind (before : Mark → Mark → Prop) (stamp : Item → Option Mark) (mark : Mark)
    (item : Item)
    : Prop :=
  ∃ own, stamp item = some own ∧ ¬ before mark own

def Delivered (before : Mark → Mark → Prop) (stamp : Item → Option Mark) (mark : Mark)
    (stored delivered : Set Item)
    : Prop :=
  ∀ item ∈ stored, Behind before stamp mark item → item ∈ delivered

theorem Delivered.mono {mark : Mark} {stored fewer delivered more : Set Item}
    (h : Delivered before stamp mark stored delivered) (removed : fewer ⊆ stored)
    (added : delivered ⊆ more)
    : Delivered before stamp mark fewer more :=
  fun item member behind => added (h item (removed member) behind)

theorem Delivered.store {mark : Mark} {stored after delivered : Set Item} {item : Item}
    (h : Delivered before stamp mark stored delivered)
    (ahead : ¬ Behind before stamp mark item) (only : after ⊆ insert item stored)
    : Delivered before stamp mark after delivered := by
  intro other member behind
  rcases only member with rfl | member
  · exact absurd behind ahead
  · exact h other member behind

theorem Delivered.scan {mark next : Mark} {stored delivered found : Set Item}
    (h : Delivered before stamp mark stored delivered)
    (finds : ∀ item ∈ stored, Behind before stamp next item
      → ¬ Behind before stamp mark item → item ∈ found)
    : Delivered before stamp next stored (delivered ∪ found) := by
  intro item member behind
  by_cases earlier : Behind before stamp mark item
  · exact Or.inl (h item member earlier)
  · exact Or.inr (finds item member behind earlier)

end Watermark
