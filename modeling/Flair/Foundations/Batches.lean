import Mathlib.Data.List.Forall2

/-! Working a list off in batches: a batch processes the first pending items in order, and the
loop ends with the first batch that gets nothing done. Whether an item is reached depends on
how many items before it cannot be done.
-/

namespace Batching

universe u

/-- What a batch does to an item. An item that is done is no longer pending; one that is not
stays as it is, or is no longer pending either.
-/
structure Job (Item : Type u) where
  pending : Item → Bool
  process : Item → Item
  done : Item → Bool
  settles : ∀ item, done item = true → pending (process item) = false
  keeps : ∀ item, done item = false → process item = item ∨ pending (process item) = false

namespace Job

variable {Item : Type u} (job : Job Item)

def workable (item : Item) : Bool := job.pending item && job.done item

def failing (item : Item) : Bool := job.pending item && !job.done item

def stuck (item : Item) : Bool := job.failing item && job.pending (job.process item)

def batch : Nat → List Item → List Item
  | _, [] => []
  | 0, items => items
  | size + 1, item :: rest =>
    if job.pending item then job.process item :: batch size rest
    else item :: batch (size + 1) rest

def processed (size : Nat) (items : List Item) : Nat :=
  ((items.filter job.pending).take size).countP job.done

/-- Batches until one gets nothing done; `none` when the fuel runs out first. -/
def loop (size : Nat) : Nat → List Item → Option (List Item)
  | 0, _ => none
  | fuel + 1, items =>
    if job.processed size items = 0 then some (job.batch size items)
    else loop size fuel (job.batch size items)

def Covered (items final : List Item) : Prop :=
  ∀ before item after, items = before ++ item :: after → job.workable item = true
    → final[before.length]? = some (job.process item)

def Advanced (item now : Item) : Prop :=
  now = item
  ∨ (job.pending item = true ∧ now = job.process item ∧ job.pending now = false)

-- One batch

variable {job}

@[simp] theorem batch_zero (items : List Item) : job.batch 0 items = items := by
  cases items <;> rfl

@[simp] theorem batch_nil (size : Nat) : job.batch size [] = [] := by
  cases size <;> rfl

theorem batch_cons (size : Nat) (item : Item) (rest : List Item)
    : job.batch (size + 1) (item :: rest)
      = if job.pending item then job.process item :: job.batch size rest
        else item :: job.batch (size + 1) rest :=
  rfl

@[simp] theorem length_batch (size : Nat) (items : List Item)
    : (job.batch size items).length = items.length := by
  induction items generalizing size with
  | nil => cases size <;> rfl
  | cons item rest ih =>
    cases size with
    | zero => rfl
    | succ size =>
      rw [batch_cons]
      split <;> simp [ih]

theorem batch_append (size : Nat) (first second : List Item)
    : job.batch size (first ++ second)
      = job.batch size first ++ job.batch (size - first.countP job.pending) second := by
  induction first generalizing size with
  | nil => simp
  | cons item rest ih =>
    cases size with
    | zero => simp
    | succ size =>
      rw [List.cons_append, batch_cons, batch_cons]
      by_cases pending : job.pending item = true
      · simp [pending, ih]
      · simp [pending, ih]

theorem processed_append (size : Nat) (first second : List Item)
    : job.processed size (first ++ second)
      = job.processed size first
        + job.processed (size - first.countP job.pending) second := by
  simp only [processed, List.filter_append, List.take_append, List.countP_append,
    List.countP_eq_length_filter (p := job.pending)]

theorem countP_batch (size : Nat) (items : List Item)
    : (job.batch size items).countP job.pending + job.processed size items
      ≤ items.countP job.pending := by
  induction items generalizing size with
  | nil => simp [processed]
  | cons item rest ih =>
    cases size with
    | zero => simp [processed]
    | succ size =>
      by_cases pending : job.pending item = true
      · have rest_ := ih size
        have head : (if job.pending (job.process item) = true then 1 else 0)
            + (if job.done item = true then 1 else 0) ≤ 1 := by
          by_cases done : job.done item = true
          · simp [done, job.settles item done]
          · simp only [done]
            split <;> simp
        simp only [batch_cons, pending, if_true, processed, List.filter_cons, List.take_succ_cons,
          List.countP_cons] at rest_ ⊢
        omega
      · simpa [batch_cons, pending, processed, List.filter_cons, List.countP_cons]
          using ih (size + 1)

variable {size : Nat} {items : List Item}

theorem failing_of_processed_eq_zero (nothing : job.processed size items = 0)
    : min size (items.countP job.pending) ≤ items.countP job.failing := by
  have all : ∀ item ∈ (items.filter job.pending).take size, job.failing item = true := by
    intro item member
    have undone := List.countP_eq_zero.mp nothing item member
    have pending := (List.mem_filter.mp (List.mem_of_mem_take member)).2
    simp [failing, pending, undone]
  have counted := List.countP_eq_length.mpr all
  have sublist : ((items.filter job.pending).take size).Sublist items :=
    (List.take_sublist _ _).trans List.filter_sublist
  have bound := sublist.countP_le (p := job.failing)
  rw [counted, List.length_take, ← List.countP_eq_length_filter] at bound
  exact bound

-- A run of batches

variable {item : Item}

theorem Advanced.process {now : Item} (advanced : job.Advanced item now)
    (pending : job.pending now = true)
    : job.Advanced item (job.process now) := by
  rcases advanced with rfl | ⟨-, -, settled⟩
  · by_cases done : job.done now = true
    · exact .inr ⟨pending, rfl, job.settles now done⟩
    · rcases job.keeps now (by simpa using done) with same | settled
      · exact .inl same
      · exact .inr ⟨pending, rfl, settled⟩
  · rw [pending] at settled
    cases settled

variable {now : List Item}

theorem advanced_batch (advanced : List.Forall₂ job.Advanced items now) (size : Nat)
    : List.Forall₂ job.Advanced items (job.batch size now) := by
  induction advanced generalizing size with
  | nil => cases size <;> exact .nil
  | @cons item here items now head tail ih =>
    cases size with
    | zero => exact .cons head tail
    | succ size =>
      rw [batch_cons]
      split
      · rename_i pending
        exact .cons (head.process pending) (ih size)
      · exact .cons head (ih (size + 1))

theorem advanced_refl (items : List Item) : List.Forall₂ job.Advanced items items := by
  induction items with
  | nil => exact .nil
  | cons item rest ih => exact .cons (.inl rfl) ih

variable {fuel : Nat} {final : List Item}

theorem loop_last (advanced : List.Forall₂ job.Advanced items now)
    (ended : job.loop size fuel now = some final)
    : ∃ last, List.Forall₂ job.Advanced items last ∧ job.processed size last = 0
      ∧ final = job.batch size last := by
  induction fuel generalizing now with
  | zero => cases ended
  | succ fuel ih =>
    rw [loop] at ended
    split at ended
    · rename_i nothing
      cases ended
      exact ⟨now, advanced, nothing, rfl⟩
    · exact ih (advanced_batch advanced size) ended

theorem failing_advanced (advanced : List.Forall₂ job.Advanced items now)
    : now.countP job.failing ≤ items.countP job.failing := by
  induction advanced with
  | nil => exact Nat.le_refl _
  | @cons item here items now head tail ih =>
    rw [List.countP_cons, List.countP_cons]
    have here_ : (if job.failing here = true then 1 else 0)
        ≤ (if job.failing item = true then 1 else 0) := by
      rcases head with rfl | ⟨-, -, settled⟩
      · exact Nat.le_refl _
      · simp [failing, settled]
    omega

theorem advanced_split {before after : List Item}
    (advanced : List.Forall₂ job.Advanced (before ++ item :: after) now)
    : ∃ first here second, now = first ++ here :: second ∧ first.length = before.length
      ∧ List.Forall₂ job.Advanced before first ∧ job.Advanced item here := by
  induction before generalizing now with
  | nil =>
    obtain ⟨here, second, head, -, rfl⟩ := List.forall₂_cons_left_iff.mp advanced
    exact ⟨[], here, second, rfl, rfl, .nil, head⟩
  | cons other before ih =>
    obtain ⟨there, rest, head, tail, rfl⟩ := List.forall₂_cons_left_iff.mp advanced
    obtain ⟨first, here, second, rfl, same, earlier, now_⟩ := ih tail
    exact ⟨there :: first, here, second, rfl, by simp [same], .cons head earlier, now_⟩

theorem loop_reaches {before after : List Item} (workable : job.workable item = true)
    (few : before.countP job.failing < size)
    (ended : job.loop size fuel (before ++ item :: after) = some final)
    : final[before.length]? = some (job.process item) := by
  obtain ⟨last, advanced, nothing, rfl⟩ := loop_last (advanced_refl _) ended
  obtain ⟨first, here, second, rfl, same, earlier, now⟩ := advanced_split advanced
  obtain ⟨pending, done⟩ := Bool.and_eq_true_iff.mp workable
  have fewer := failing_advanced earlier
  rw [processed_append, Nat.add_eq_zero_iff] at nothing
  obtain ⟨none, later⟩ := nothing
  have failed := failing_of_processed_eq_zero none
  -- the batch that got nothing done had room for the item
  obtain ⟨room, left⟩ : ∃ room, size - first.countP job.pending = room + 1 :=
    Nat.exists_eq_succ_of_ne_zero (by omega)
  rcases now with rfl | ⟨-, rfl, settled⟩
  · rw [left, processed, List.filter_cons_of_pos pending, List.take_succ_cons,
      List.countP_cons_of_pos done] at later
    cases later
  · rw [batch_append, left, ← same, ← @length_batch _ job size first,
      List.getElem?_append_right (Nat.le_refl _)]
    simp [batch_cons, settled]

-- Starvation

theorem process_stuck (stuck : job.stuck item = true)
    : job.process item = item := by
  simp only [Job.stuck, failing, Bool.and_eq_true, Bool.not_eq_true'] at stuck
  obtain ⟨⟨-, undone⟩, pending⟩ := stuck
  rcases job.keeps item undone with same | settled
  · exact same
  · rw [pending] at settled
    cases settled

theorem stuck_batch (size : Nat) (items : List Item)
    : items.countP job.stuck ≤ (job.batch size items).countP job.stuck := by
  induction items generalizing size with
  | nil => cases size <;> exact Nat.le_refl _
  | cons item rest ih =>
    cases size with
    | zero => exact Nat.le_refl _
    | succ size =>
      rw [batch_cons]
      split
      · have tail := ih size
        rw [List.countP_cons, List.countP_cons]
        by_cases stuck : job.stuck item = true
        · rw [process_stuck stuck]
          omega
        · rw [if_neg stuck]
          omega
      · have tail := ih (size + 1)
        rw [List.countP_cons, List.countP_cons]
        omega

theorem stuck_le_pending (items : List Item)
    : items.countP job.stuck ≤ items.countP job.pending := by
  refine List.countP_mono_left ?_
  intro item _ stuck
  simp only [Job.stuck, failing, Bool.and_eq_true] at stuck
  exact stuck.1.1

/-- A loop goes no further than a batch's worth of stuck items, by induction on the fuel. -/
theorem loop_stops {first second : List Item} (many : size ≤ first.countP job.stuck)
    (ended : job.loop size fuel (first ++ second) = some final)
    : ∃ reached, final = reached ++ second ∧ reached.length = first.length := by
  induction fuel generalizing first with
  | zero => cases ended
  | succ fuel ih =>
    have full : size - first.countP job.pending = 0 := by
      have := @stuck_le_pending _ job first
      omega
    rw [loop, batch_append, full, batch_zero] at ended
    split at ended
    · cases ended
      exact ⟨_, rfl, length_batch size first⟩
    · have kept := @stuck_batch _ job size first
      obtain ⟨reached, rfl, same⟩ := ih (by omega) ended
      exact ⟨reached, rfl, same.trans (length_batch size first)⟩

/-- The loop covers its items when fewer failing items than a batch holds precede each
workable one, and only when fewer stuck ones do.
-/
theorem loop_covers (ended : job.loop size fuel items = some final)
    : ((∀ before item after, items = before ++ item :: after → job.workable item = true
          → before.countP job.failing < size)
        → job.Covered items final)
      ∧ (job.Covered items final
        → ∀ before item after, items = before ++ item :: after → job.workable item = true
          → before.countP job.stuck < size) := by
  constructor
  · intro few before item after same workable
    subst same
    exact loop_reaches workable (few before item after rfl workable) ended
  · intro covered before item after same workable
    have reached := covered before item after same workable
    subst same
    by_contra many
    obtain ⟨first, rfl, length⟩ := loop_stops (Nat.le_of_not_lt many) ended
    rw [← length, List.getElem?_append_right (Nat.le_refl _), Nat.sub_self,
      List.getElem?_cons_zero] at reached
    obtain ⟨pending, done⟩ := Bool.and_eq_true_iff.mp workable
    have settled := job.settles item done
    rw [← Option.some.inj reached, pending] at settled
    cases settled

end Job

end Batching
