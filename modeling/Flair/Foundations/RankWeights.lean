import Mathlib.Algebra.Order.BigOperators.Group.List
import Mathlib.Data.List.Induction
import Mathlib.Data.List.Nodup
import Mathlib.Tactic.Linarith

/-! Ranked lists whose positions carry weights. An item that is listed above another has at
least its weight when the weights do not grow along the list, by summation in parts.
-/

namespace RankWeights

universe u v

variable {α : Type u} [DecidableEq α]

/-- At every cut of the list the first item has been listed at least as often as the second.
-/
def RanksAtOrAbove (ranking : List α) (upper lower : α) : Prop :=
  ∀ cut, (ranking.take cut).count lower ≤ (ranking.take cut).count upper

/-- In a list without repetitions an item ranks at or above another by its position; an item
that is not listed comes after all.
-/
theorem ranksAtOrAbove_of_idxOf {ranking : List α} (once : ranking.Nodup) {upper lower : α}
    (before : ranking.idxOf upper ≤ ranking.idxOf lower)
    : RanksAtOrAbove ranking upper lower := by
  intro cut
  by_cases listed : lower ∈ ranking.take cut
  · have isAt : ranking.idxOf lower < cut := by
      have inTake := List.idxOf_lt_length_of_mem listed
      have same : (ranking.take cut).idxOf lower = ranking.idxOf lower := by
        conv_rhs => rw [← List.take_append_drop cut ranking]
        rw [List.idxOf_append_of_mem listed]
      rw [same, List.length_take] at inTake
      omega
    have inList : lower ∈ ranking := List.mem_of_mem_take listed
    have upperIn : upper ∈ ranking := by
      have bound := List.idxOf_lt_length_of_mem inList
      exact List.idxOf_lt_length_iff.mp (by omega)
    have upperTaken : upper ∈ ranking.take cut := by
      have bound := List.idxOf_lt_length_of_mem upperIn
      rw [List.mem_take_iff_getElem]
      exact ⟨ranking.idxOf upper, by omega, List.getElem_idxOf bound⟩
    rw [List.count_eq_one_of_mem (once.sublist (List.take_sublist cut ranking)) listed,
      List.count_eq_one_of_mem (once.sublist (List.take_sublist cut ranking)) upperTaken]
  · rw [List.count_eq_zero.mpr listed]
    exact Nat.zero_le _

section

variable {K : Type v} [CommRing K] [LinearOrder K] [IsStrictOrderedRing K]

def weightOf (weight : Nat → K) (ranking : List α) (item : α) : K :=
  (ranking.zipIdx.map fun place => if place.1 = item then weight place.2 else 0).sum

omit [LinearOrder K] [IsStrictOrderedRing K] in
theorem weightOf_concat (weight : Nat → K) (ranking : List α) (last item : α)
    : weightOf weight (ranking ++ [last]) item
      = weightOf weight ranking item + if last = item then weight ranking.length else 0 := by
  simp [weightOf, List.zipIdx_append]

variable {weight : Nat → K}

theorem weightOf_nonneg (nonneg : ∀ place, 0 ≤ weight place) (ranking : List α) (item : α)
    : 0 ≤ weightOf weight ranking item := by
  apply List.sum_nonneg
  intro share listed
  obtain ⟨place, -, rfl⟩ := List.mem_map.mp listed
  split
  · exact nonneg place.2
  · exact le_rfl

variable {ranking : List α}

theorem weightOf_pos (pos : ∀ place, 0 < weight place) {item : α} (listed : item ∈ ranking)
    : 0 < weightOf weight ranking item := by
  induction ranking using List.reverseRecOn with
  | nil => cases listed
  | append_singleton ranking last ih =>
    rw [weightOf_concat]
    have earlier := weightOf_nonneg (fun place => (pos place).le) ranking item
    by_cases isLast : last = item
    · rw [if_pos isLast]
      exact add_pos_of_nonneg_of_pos earlier (pos _)
    rw [if_neg isLast, add_zero]
    apply ih
    rcases List.mem_append.mp listed with inside | atEnd
    · exact inside
    · exact absurd (List.mem_singleton.mp atEnd).symm isLast

/-- The lead in listings at the end of the list, weighed at the next position, is no more than
the lead in weights, by induction from the end of the list.
-/
theorem lead_le (falls : ∀ place, weight (place + 1) ≤ weight place) {upper lower : α}
    (above : RanksAtOrAbove ranking upper lower)
    : ((ranking.count upper : K) - ranking.count lower) * weight ranking.length
      ≤ weightOf weight ranking upper - weightOf weight ranking lower := by
  induction ranking using List.reverseRecOn with
  | nil => simp [weightOf]
  | append_singleton ranking last ih =>
    have earlier := ih (fun cut => by
      have atCut := above (min cut ranking.length)
      rw [List.take_append_of_le_length (Nat.min_le_right _ _)] at atCut
      rcases le_total cut ranking.length with short | long
      · rwa [min_eq_left short] at atCut
      · rwa [min_eq_right long, List.take_length, ← List.take_of_length_le long] at atCut)
    have whole := above (ranking ++ [last]).length
    rw [List.take_length] at whole
    have lead : (0 : K) ≤ (ranking ++ [last]).count upper - (ranking ++ [last]).count lower :=
      sub_nonneg.mpr (Nat.cast_le.mpr whole)
    have fewer := mul_le_mul_of_nonneg_left (falls ranking.length) lead
    rw [List.length_append, List.length_singleton]
    apply fewer.trans
    have share (item : α)
        : (([last].count item : Nat) : K) * weight ranking.length
          = if last = item then weight ranking.length else 0 := by
      by_cases isLast : last = item <;> simp [isLast]
    rw [weightOf_concat, weightOf_concat, List.count_append, List.count_append, ← share upper,
      ← share lower, Nat.cast_add, Nat.cast_add]
    linarith [earlier]

theorem weightOf_le (nonneg : ∀ place, 0 ≤ weight place)
    (falls : ∀ place, weight (place + 1) ≤ weight place) {upper lower : α}
    (above : RanksAtOrAbove ranking upper lower)
    : weightOf weight ranking lower ≤ weightOf weight ranking upper := by
  have whole := above ranking.length
  rw [List.take_length] at whole
  have lead : (0 : K) ≤ ranking.count upper - ranking.count lower :=
    sub_nonneg.mpr (Nat.cast_le.mpr whole)
  exact sub_nonneg.mp ((mul_nonneg lead (nonneg _)).trans (lead_le falls above))

end

end RankWeights
