import Mathlib.Data.List.Sort

/-! The least elements of a sequence, kept in order while it is read: what a bounded buffer
holds under a total preorder, ties aside.
-/

universe u

variable {α : Type u} {le : α → α → Prop} {cap : Nat} {seen kept : List α} {entry : α}

/-- The buffer holds, in order, as many of what was seen as fit, and every one of them is at
most every one it does not hold.
-/
structure LeastKept (le : α → α → Prop) (cap : Nat) (seen kept : List α) : Prop where
  sorted : kept.Pairwise le
  size : kept.length = min cap seen.length
  least : ∃ dropped, (kept ++ dropped).Perm seen ∧ ∀ held ∈ kept, ∀ other ∈ dropped, le held other

namespace LeastKept

theorem empty (le : α → α → Prop) (cap : Nat) : LeastKept le cap [] [] :=
  ⟨.nil, by simp, [], .nil, nofun⟩

theorem closed (h : LeastKept le 0 seen kept) (entry : α)
    : LeastKept le 0 (seen ++ [entry]) kept := by
  obtain rfl : kept = [] := List.eq_nil_of_length_eq_zero (by simpa using h.size)
  exact ⟨.nil, by simp, seen ++ [entry], .rfl, nofun⟩

variable [DecidableRel le] [Std.Total le] [IsTrans α le]

/-- An entry is added while there is room. -/
theorem add (h : LeastKept le cap seen kept) (room : kept.length < cap) (entry : α)
    : LeastKept le cap (seen ++ [entry]) ((kept ++ [entry]).insertionSort le) := by
  have size := h.size
  obtain ⟨dropped, perm, -⟩ := h.least
  have total := perm.length_eq
  rw [List.length_append] at total
  obtain rfl : dropped = [] := List.eq_nil_of_length_eq_zero (by omega)
  rw [List.append_nil] at perm
  refine ⟨List.pairwise_insertionSort le _, ?_, [], ?_, by simp⟩
  · rw [List.length_insertionSort, List.length_append, List.length_append, perm.length_eq]
    have := perm.length_eq
    simp only [List.length_singleton]
    omega
  · rw [List.append_nil]
    exact (List.perm_insertionSort le _).trans (perm.append_right _)

variable {front : List α} {worst : α}

/-- The last entry gives way to one that is before it. -/
theorem replace (h : LeastKept le cap seen (front ++ [worst]))
    (full : (front ++ [worst]).length = cap) (before : le entry worst)
    : LeastKept le cap (seen ++ [entry]) ((front ++ [entry]).insertionSort le) := by
  obtain ⟨dropped, perm, least⟩ := h.least
  have front_worst := fun held member =>
    (List.pairwise_append.mp h.sorted).2.2 held member worst (by simp)
  refine ⟨List.pairwise_insertionSort le _, ?_, worst :: dropped, ?_, ?_⟩
  · have total := perm.length_eq
    simp only [List.length_insertionSort, List.length_append, List.length_singleton]
      at total full ⊢
    omega
  · have exchanged := (@List.perm_append_comm _ [entry] (worst :: dropped)).append_left front
    refine ((List.perm_insertionSort le _).append_right _).trans ?_
    exact (by simpa using exchanged : List.Perm _ _).trans (perm.append_right [entry])
  · intro held member other missing
    have held_worst : le held worst := by
      rcases List.mem_append.mp ((List.mem_insertionSort le).mp member) with old | new
      · exact front_worst held old
      · rwa [List.mem_singleton.mp new]
    rcases List.mem_cons.mp missing with rfl | later
    · exact held_worst
    · exact IsTrans.trans _ _ _ held_worst (least worst (by simp) other later)

omit [DecidableRel le] [Std.Total le] in
/-- An entry that is not before the last one is passed over. -/
theorem pass (h : LeastKept le cap seen (front ++ [worst]))
    (full : (front ++ [worst]).length = cap) (after : le worst entry)
    : LeastKept le cap (seen ++ [entry]) (front ++ [worst]) := by
  obtain ⟨dropped, perm, least⟩ := h.least
  refine ⟨h.sorted, ?_, dropped ++ [entry], ?_, ?_⟩
  · have total := perm.length_eq
    simp only [List.length_append] at total full ⊢
    omega
  · rw [← List.append_assoc]
    exact perm.append_right _
  · intro held member other missing
    rcases List.mem_append.mp missing with old | new
    · exact least held member other old
    · rw [List.mem_singleton.mp new]
      rcases List.mem_append.mp member with earlier | last
      · exact IsTrans.trans _ _ _
          ((List.pairwise_append.mp h.sorted).2.2 held earlier worst (by simp)) after
      · rwa [List.mem_singleton.mp last]

end LeastKept
