import Mathlib.Logic.Equiv.Basic
import Mathlib.Order.Lattice

/-! Binary min-heaps in a growable array: the two sifts keep the order of every parent and
child, so the root is a least item, and they only rearrange the items.
-/

universe u v

/-- An array of items; those from `size` on are not part of it. -/
structure BinaryHeap (α : Type u) where
  size : Nat
  item : Nat → α

namespace BinaryHeap

variable {α : Type u} {β : Type v} [LinearOrder β] (key : α → β)

def parent (i : Nat) : Nat := (i - 1) / 2

def empty [Inhabited α] : BinaryHeap α := ⟨0, fun _ => default⟩

def swap (heap : BinaryHeap α) (i j : Nat) : BinaryHeap α :=
  { heap with item := fun k => heap.item (Equiv.swap i j k) }

def siftUp : (steps : Nat) → BinaryHeap α → Nat → BinaryHeap α
  | 0, heap, _ => heap
  | steps + 1, heap, i =>
    if i = 0 ∨ key (heap.item (parent i)) ≤ key (heap.item i) then heap
    else siftUp steps (heap.swap (parent i) i) (parent i)

/-- The place of the lesser of two items; the first place wins a tie. -/
def least (heap : BinaryHeap α) (i j : Nat) : Nat :=
  if j < heap.size ∧ key (heap.item j) < key (heap.item i) then j else i

/-- Move the item at a place down while one of its children is less. -/
def siftDown : (steps : Nat) → BinaryHeap α → Nat → BinaryHeap α
  | 0, heap, _ => heap
  | steps + 1, heap, i =>
    let m := least key heap (least key heap i (2 * i + 1)) (2 * i + 2)
    if m = i then heap else siftDown steps (heap.swap i m) m

def push (heap : BinaryHeap α) (value : α) : BinaryHeap α :=
  siftUp key heap.size
    { size := heap.size + 1, item := fun k => if k = heap.size then value else heap.item k }
    heap.size

/-- The heap without its root: the last item takes the root's place and moves down. -/
def pop (heap : BinaryHeap α) : BinaryHeap α :=
  siftDown key heap.size
    { size := heap.size - 1
      item := fun k => if k = 0 then heap.item (heap.size - 1) else heap.item k } 0

-- Items

def Holds (heap : BinaryHeap α) (value : α) : Prop := ∃ i < heap.size, heap.item i = value

variable {key} {heap : BinaryHeap α} {i j : Nat}

@[simp] theorem swap_size : (heap.swap i j).size = heap.size := rfl

@[simp] theorem swap_left : (heap.swap i j).item i = heap.item j := by
  simp [swap]

@[simp] theorem swap_right : (heap.swap i j).item j = heap.item i := by
  simp [swap]

theorem swap_ne {k : Nat} (first : k ≠ i) (second : k ≠ j)
    : (heap.swap i j).item k = heap.item k := by
  simp [swap, Equiv.swap_apply_of_ne_of_ne first second]

theorem holds_swap (first : i < heap.size) (second : j < heap.size) (value : α)
    : (heap.swap i j).Holds value ↔ heap.Holds value := by
  have inside : ∀ k < heap.size, Equiv.swap i j k < heap.size := by
    intro k bound
    rw [Equiv.swap_apply_def]
    split_ifs <;> assumption
  constructor
  · intro ⟨k, bound, found⟩
    exact ⟨Equiv.swap i j k, inside k bound, found⟩
  · intro ⟨k, bound, found⟩
    refine ⟨Equiv.swap i j k, inside k bound, ?_⟩
    simpa [swap] using found

theorem parent_lt (child : 0 < i) : parent i < i := by
  unfold parent
  omega

-- Order

variable (key)

def Ordered (heap : BinaryHeap α) : Prop :=
  ∀ k, 0 < k → k < heap.size → key (heap.item (parent k)) ≤ key (heap.item k)

def Across (heap : BinaryHeap α) (i : Nat) : Prop :=
  0 < i → ∀ k, 0 < k → k < heap.size → parent k = i
    → key (heap.item (parent i)) ≤ key (heap.item k)

structure UpOrder (heap : BinaryHeap α) (i : Nat) : Prop where
  inside : i < heap.size
  off : ∀ k, 0 < k → k < heap.size → k ≠ i
    → key (heap.item (parent k)) ≤ key (heap.item k)
  across : Across key heap i

structure DownOrder (heap : BinaryHeap α) (i : Nat) : Prop where
  off : ∀ k, 0 < k → k < heap.size → parent k ≠ i
    → key (heap.item (parent k)) ≤ key (heap.item k)
  across : Across key heap i

variable {key}

theorem UpOrder.finish (h : UpOrder key heap i)
    (stop : i = 0 ∨ key (heap.item (parent i)) ≤ key (heap.item i))
    : Ordered key heap := by
  intro k child bound
  by_cases same : k = i
  · subst same
    rcases stop with rfl | above
    · exact absurd child (Nat.lt_irrefl 0)
    · exact above
  · exact h.off k child bound same

theorem UpOrder.move (h : UpOrder key heap i) (child : 0 < i)
    (less : key (heap.item i) < key (heap.item (parent i)))
    : UpOrder key (heap.swap (parent i) i) (parent i) := by
  have below := parent_lt child
  have inside := h.inside
  refine ⟨?_, ?_, ?_⟩
  · rw [swap_size]
    omega
  · intro k positive bound apart
    rw [swap_size] at bound
    by_cases same : k = i
    · subst same
      rw [swap_left, swap_right]
      exact less.le
    · rw [swap_ne apart same]
      by_cases under : parent k = i
      · rw [under, swap_right]
        exact h.across child k positive bound under
      by_cases beside : parent k = parent i
      · rw [beside, swap_left]
        have before := h.off k positive bound same
        rw [beside] at before
        exact less.le.trans before
      · rw [swap_ne beside under]
        exact h.off k positive bound same
  · intro above k positive bound under
    rw [swap_size] at bound
    have higher := parent_lt above
    rw [swap_ne (by omega) (by omega)]
    have upper := h.off (parent i) above (by omega) (by omega)
    by_cases same : k = i
    · subst same
      rw [swap_right]
      exact upper
    · have apart : k ≠ parent i := by
        rintro rfl
        omega
      rw [swap_ne apart same]
      have before := h.off k positive bound same
      rw [under] at before
      exact upper.trans before

theorem siftUp_ordered (steps : Nat) (h : UpOrder key heap i) (enough : i ≤ steps)
    : Ordered key (siftUp key steps heap i) ∧ (siftUp key steps heap i).size = heap.size
      ∧ ∀ value, (siftUp key steps heap i).Holds value ↔ heap.Holds value := by
  induction steps generalizing heap i with
  | zero => exact ⟨h.finish (Or.inl (by omega)), rfl, fun _ => Iff.rfl⟩
  | succ steps ih =>
    unfold siftUp
    split
    · rename_i stop
      exact ⟨h.finish stop, rfl, fun _ => Iff.rfl⟩
    rename_i go
    rw [not_or, not_le] at go
    have child : 0 < i := Nat.pos_of_ne_zero go.1
    have above := parent_lt child
    have inside := h.inside
    obtain ⟨ordered, size, holds⟩ := ih (h.move child go.2) (by omega)
    refine ⟨ordered, size, ?_⟩
    intro value
    exact (holds value).trans (holds_swap (by omega) inside value)

theorem DownOrder.finish (h : DownOrder key heap i)
    (stop : ∀ k, 0 < k → k < heap.size → parent k = i
      → key (heap.item i) ≤ key (heap.item k))
    : Ordered key heap := by
  intro k positive bound
  by_cases under : parent k = i
  · rw [under]
    exact stop k positive bound under
  · exact h.off k positive bound under

theorem DownOrder.move {m : Nat} (h : DownOrder key heap i) (inside : m < heap.size)
    (child : 0 < m) (under : parent m = i)
    (less : key (heap.item m) < key (heap.item i))
    (most : ∀ k, 0 < k → k < heap.size → parent k = i
      → key (heap.item m) ≤ key (heap.item k))
    : DownOrder key (heap.swap i m) m := by
  have below : i < m := under ▸ parent_lt child
  refine ⟨?_, ?_⟩
  · intro k positive bound apart
    rw [swap_size] at bound
    have above := parent_lt positive
    by_cases same : k = m
    · subst same
      rw [under, swap_left, swap_right]
      exact less.le
    · by_cases beside : parent k = i
      · rw [beside, swap_left, swap_ne (by omega) same]
        exact most k positive bound beside
      by_cases root : k = i
      · subst root
        rw [swap_left, swap_ne (by omega) (by omega)]
        exact h.across positive m child inside under
      · rw [swap_ne root same, swap_ne beside apart]
        exact h.off k positive bound beside
  · intro _ k positive bound grandchild
    rw [swap_size] at bound
    have above := parent_lt positive
    rw [under, swap_left, swap_ne (by omega) (by omega)]
    have before := h.off k positive bound (by omega)
    rwa [grandchild] at before

theorem empty_ordered [Inhabited α] : Ordered key (empty : BinaryHeap α) := by
  intro k _ bound
  exact absurd bound (Nat.not_lt_zero k)

theorem push_ordered (h : Ordered key heap) (value : α)
    : Ordered key (heap.push key value) ∧ (heap.push key value).size = heap.size + 1
      ∧ ∀ other, (heap.push key value).Holds other ↔ other = value ∨ heap.Holds other := by
  have start : UpOrder key
      { size := heap.size + 1, item := fun k => if k = heap.size then value else heap.item k }
      heap.size := by
    refine ⟨Nat.lt_succ_self _, ?_, ?_⟩
    · intro k positive bound apart
      dsimp only at bound ⊢
      have above := parent_lt positive
      rw [if_neg apart, if_neg (by omega)]
      exact h k positive (by omega)
    · intro _ k positive bound under
      have above := parent_lt positive
      dsimp only at bound
      omega
  obtain ⟨ordered, size, holds⟩ := siftUp_ordered heap.size start (Nat.le_refl _)
  refine ⟨ordered, size, ?_⟩
  intro other
  rw [push, holds other]
  constructor
  · intro ⟨k, bound, found⟩
    dsimp only at bound found
    by_cases same : k = heap.size
    · rw [if_pos same] at found
      exact Or.inl found.symm
    · rw [if_neg same] at found
      exact Or.inr ⟨k, by omega, found⟩
  · rintro (rfl | ⟨k, bound, found⟩)
    · exact ⟨heap.size, Nat.lt_succ_self _, if_pos rfl⟩
    · refine ⟨k, Nat.lt_succ_of_lt bound, ?_⟩
      exact (if_neg (Nat.ne_of_lt bound)).trans found

end BinaryHeap
