import Mathlib.Algebra.BigOperators.Group.List.Basic
import Mathlib.Data.List.Nodup

/-! Maps as lists of their entries in the order the keys were first set. An entry that is
set again keeps its place. Maps of numbers are read through their totals over keys.
-/

universe u v

/-- The entries of a map, each key once when the map is built by `modify` and `delete`. -/
abbrev InsertionMap (κ : Type u) (ν : Type v) := List (κ × ν)

namespace InsertionMap

variable {κ : Type u} {ν : Type v} [DecidableEq κ]

def get : InsertionMap κ ν → κ → Option ν
  | [], _ => none
  | (other, value) :: rest, key => if other = key then some value else get rest key

def modify (key : κ) (change : Option ν → ν) : InsertionMap κ ν → InsertionMap κ ν
  | [] => [(key, change none)]
  | (other, value) :: rest =>
    if other = key then (other, change (some value)) :: rest
    else (other, value) :: modify key change rest

def set (map : InsertionMap κ ν) (key : κ) (value : ν) : InsertionMap κ ν :=
  modify key (fun _ => value) map

def delete (map : InsertionMap κ ν) (key : κ) : InsertionMap κ ν :=
  map.filter fun entry => entry.1 ≠ key

def Distinct (map : InsertionMap κ ν) : Prop := (map.map Prod.fst).Nodup

variable {map : InsertionMap κ ν} {key other : κ}

@[simp] theorem get_nil : get ([] : InsertionMap κ ν) key = none := rfl

theorem get_cons (value : ν)
    : get ((other, value) :: map) key = if other = key then some value else get map key :=
  rfl

theorem modify_nil (change : Option ν → ν)
    : modify key change ([] : InsertionMap κ ν) = [(key, change none)] :=
  rfl

theorem modify_cons (change : Option ν → ν) (value : ν)
    : modify key change ((other, value) :: map)
      = if other = key then (other, change (some value)) :: map
        else (other, value) :: modify key change map :=
  rfl

@[simp] theorem get_modify (change : Option ν → ν)
    : get (modify key change map) other
      = if other = key then some (change (get map key)) else get map other := by
  induction map with
  | nil =>
    by_cases same : other = key
    · simp [modify_nil, get_cons, same]
    · have apart : key ≠ other := fun equal => same equal.symm
      simp [modify_nil, get_cons, same, apart]
  | cons entry rest ih =>
    obtain ⟨first, value⟩ := entry
    rw [modify_cons]
    split
    · rename_i here
      subst here
      by_cases same : other = first
      · simp [get_cons, same]
      · have apart : first ≠ other := fun equal => same equal.symm
        simp [get_cons, same, apart]
    · rename_i beyond
      by_cases same : first = other
      · subst same
        simp [get_cons, beyond]
      · simp [get_cons, same, beyond, ih]

@[simp] theorem get_set (value : ν)
    : get (set map key value) other = if other = key then some value else get map other :=
  get_modify _

@[simp] theorem get_delete
    : get (delete map key) other = if other = key then none else get map other := by
  induction map with
  | nil => simp [delete]
  | cons entry rest ih =>
    obtain ⟨first, value⟩ := entry
    unfold delete at ih ⊢
    by_cases here : first = key
    · subst here
      by_cases same : other = first
      · simpa [same] using ih
      · have apart : first ≠ other := fun equal => same equal.symm
        simpa [get_cons, same, apart] using ih
    · by_cases same : first = other
      · subst same
        simp [get_cons, here]
      · simpa [get_cons, same, here] using ih

theorem get_map_entries {μ : Type v} (change : κ → ν → μ)
    : get (map.map fun entry => (entry.1, change entry.1 entry.2)) key
      = (get map key).map (change key) := by
  induction map with
  | nil => rfl
  | cons entry rest ih =>
    obtain ⟨first, value⟩ := entry
    by_cases same : first = key
    · subst same
      simp [get_cons]
    · simpa [get_cons, same] using ih

theorem mem_of_get {value : ν} (h : get map key = some value) : (key, value) ∈ map := by
  induction map with
  | nil => cases h
  | cons entry rest ih =>
    obtain ⟨first, held⟩ := entry
    rw [get_cons] at h
    split at h
    · rename_i same
      cases h
      simp [same]
    · exact List.mem_cons_of_mem _ (ih h)

theorem get_eq_none (fresh : key ∉ map.map Prod.fst) : get map key = none := by
  cases found : get map key with
  | none => rfl
  | some value => exact absurd (List.mem_map_of_mem (mem_of_get found)) fresh

theorem set_fresh {value : ν} (fresh : get map key = none)
    : set map key value = map ++ [(key, value)] := by
  unfold InsertionMap.set
  induction map with
  | nil => rfl
  | cons entry rest ih =>
    rw [get_cons] at fresh
    split at fresh
    · cases fresh
    · rename_i apart
      rw [modify_cons, if_neg apart, ih fresh]
      rfl

theorem Distinct.get_of_mem (h : Distinct map) {value : ν} (member : (key, value) ∈ map)
    : get map key = some value := by
  induction map with
  | nil => cases member
  | cons entry rest ih =>
    obtain ⟨first, held⟩ := entry
    obtain ⟨fresh, later⟩ := List.nodup_cons.mp h
    rcases List.mem_cons.mp member with same | inside
    · obtain ⟨rfl, rfl⟩ := Prod.mk.inj same
      simp [get_cons]
    have apart : first ≠ key := by
      rintro rfl
      exact fresh (List.mem_map.mpr ⟨_, inside, rfl⟩)
    rw [get_cons, if_neg apart]
    exact ih later inside

theorem modify_congr {change other : Option ν → ν}
    (same : change (get map key) = other (get map key))
    : modify key change map = modify key other map := by
  induction map with
  | nil => exact congrArg (fun value => [(key, value)]) same
  | cons first rest ih =>
    obtain ⟨place, held⟩ := first
    rw [get_cons] at same
    rw [modify_cons, modify_cons]
    split
    · rename_i here
      rw [if_pos here] at same
      rw [same]
    · rename_i beyond
      rw [if_neg beyond] at same
      rw [ih same]

theorem isSome_get_of_mem {entry : κ × ν} (member : entry ∈ map)
    : (get map entry.1).isSome := by
  induction map with
  | nil => cases member
  | cons first rest ih =>
    obtain ⟨other, held⟩ := first
    rw [get_cons]
    split
    · rfl
    rename_i apart
    rcases List.mem_cons.mp member with rfl | later
    · exact absurd rfl apart
    · exact ih later

theorem mem_of_mem_modify {change : Option ν → ν} {entry : κ × ν}
    (member : entry ∈ modify key change map)
    : entry ∈ map ∨ ∃ old, entry = (key, change old) := by
  induction map with
  | nil =>
    simp only [modify_nil, List.mem_singleton] at member
    exact Or.inr ⟨none, member⟩
  | cons first rest ih =>
    obtain ⟨other, value⟩ := first
    rw [modify_cons] at member
    split at member
    · rename_i same
      subst same
      rcases List.mem_cons.mp member with rfl | later
      · exact Or.inr ⟨some value, rfl⟩
      · exact Or.inl (List.mem_cons_of_mem _ later)
    · rcases List.mem_cons.mp member with rfl | later
      · exact Or.inl List.mem_cons_self
      · exact (ih later).imp_left (List.mem_cons_of_mem _)

def filterLists {α : Type v} (keep : α → Bool) (map : InsertionMap κ (List α))
    : InsertionMap κ (List α) :=
  map.filterMap fun entry =>
    if entry.2.filter keep = [] then none else some (entry.1, entry.2.filter keep)

theorem Distinct.get_filterLists {α : Type v} {map : InsertionMap κ (List α)}
    (h : Distinct map) (keep : α → Bool)
    : (get (filterLists keep map) key).getD [] = ((get map key).getD []).filter keep := by
  unfold filterLists
  induction map with
  | nil => rfl
  | cons first rest ih =>
    obtain ⟨other, list⟩ := first
    obtain ⟨fresh, later⟩ := List.nodup_cons.mp h
    rw [List.filterMap_cons]
    by_cases gone : list.filter keep = []
    · simp only [gone, ↓reduceIte]
      rw [ih later]
      by_cases same : other = key
      · subst same
        rw [get_eq_none fresh, get_cons, if_pos rfl, Option.getD_some, gone]
        rfl
      · rw [get_cons, if_neg same]
    · simp only [gone, ↓reduceIte]
      by_cases same : other = key
      · rw [get_cons, get_cons, if_pos same, if_pos same]
        rfl
      · rw [get_cons, get_cons, if_neg same, if_neg same, ih later]

theorem mem_keys_modify (change : Option ν → ν)
    : other ∈ (modify key change map).map Prod.fst
      ↔ other = key ∨ other ∈ map.map Prod.fst := by
  induction map with
  | nil => simp [modify_nil]
  | cons entry rest ih =>
    obtain ⟨first, value⟩ := entry
    rw [modify_cons]
    split
    · rename_i here
      subst here
      simp
    · rw [List.map_cons, List.mem_cons, ih, List.map_cons, List.mem_cons]
      exact or_left_comm

theorem Distinct.modify (h : Distinct map) (change : Option ν → ν)
    : Distinct (modify key change map) := by
  induction map with
  | nil => simp [modify_nil, Distinct]
  | cons entry rest ih =>
    obtain ⟨first, value⟩ := entry
    obtain ⟨fresh, later⟩ := List.nodup_cons.mp h
    rw [modify_cons]
    split
    · exact h
    rename_i apart
    refine List.nodup_cons.mpr ⟨?_, ih later⟩
    rw [mem_keys_modify]
    rintro (same | inside)
    · exact apart same
    · exact fresh inside

omit [DecidableEq κ] in
theorem Distinct.filterLists {α : Type v} {map : InsertionMap κ (List α)} (h : Distinct map)
    (keep : α → Bool)
    : Distinct (filterLists keep map) := by
  induction map with
  | nil => exact h
  | cons first rest ih =>
    obtain ⟨fresh, later⟩ := List.nodup_cons.mp h
    unfold InsertionMap.filterLists at ih ⊢
    rw [List.filterMap_cons]
    by_cases gone : first.2.filter keep = []
    · simp only [gone, ↓reduceIte]
      exact ih later
    simp only [gone, ↓reduceIte]
    refine List.nodup_cons.mpr ⟨?_, ih later⟩
    intro member
    obtain ⟨entry, inside, same⟩ := List.mem_map.mp member
    obtain ⟨old, oldInside, made⟩ := List.mem_filterMap.mp inside
    rw [Option.ite_none_left_eq_some] at made
    obtain ⟨-, equal⟩ := made
    cases equal
    exact fresh (List.mem_map.mpr ⟨old, oldInside, same⟩)

theorem Distinct.delete (h : Distinct map) : Distinct (delete map key) :=
  h.sublist (List.filter_sublist.map Prod.fst)

theorem Distinct.delete_split {front back : InsertionMap κ ν} {entry : κ × ν}
    (h : Distinct (front ++ entry :: back))
    : InsertionMap.delete (front ++ entry :: back) entry.1 = front ++ back := by
  unfold Distinct at h
  rw [List.map_append, List.map_cons, List.nodup_middle, List.nodup_cons,
    ← List.map_append] at h
  have others : ∀ other ∈ front ++ back, other.1 ≠ entry.1 := by
    intro other member same
    exact h.1 (same ▸ List.mem_map_of_mem member)
  have kept : (front ++ back).filter (fun other => other.1 ≠ entry.1) = front ++ back := by
    rw [List.filter_eq_self]
    intro other member
    simpa using others other member
  rw [List.filter_append] at kept
  unfold InsertionMap.delete
  rw [List.filter_append, List.filter_cons_of_neg (by simp), kept]

-- Totals

section

variable {μ : Type v} [AddCommMonoid μ] {tally : InsertionMap κ μ}

def bump (tally : InsertionMap κ μ) (key : κ) (amount : μ) : InsertionMap κ μ :=
  modify key (fun held => held.getD 0 + amount) tally

def total (keep : κ → Bool) (tally : InsertionMap κ μ) : μ :=
  ((tally.filter fun entry => keep entry.1).map Prod.snd).sum

variable {keep : κ → Bool}

omit [DecidableEq κ] in
@[simp] theorem total_nil : total keep ([] : InsertionMap κ μ) = 0 := rfl

omit [DecidableEq κ] in
theorem total_cons (entry : κ × μ)
    : total keep (entry :: tally) = (if keep entry.1 then entry.2 else 0) + total keep tally := by
  unfold total
  rw [List.filter_cons]
  split <;> simp

@[simp] theorem total_bump (key : κ) (amount : μ)
    : total keep (bump tally key amount)
      = total keep tally + if keep key then amount else 0 := by
  unfold bump
  induction tally with
  | nil => simp [modify_nil, total_cons]
  | cons entry rest ih =>
    obtain ⟨first, held⟩ := entry
    rw [modify_cons]
    split
    · rename_i here
      subst here
      rw [total_cons, total_cons, Option.getD_some]
      split
      · exact add_right_comm held amount _
      · simp
    · rw [total_cons, total_cons, ih, add_assoc]

@[simp] theorem get_bump (amount : μ)
    : get (bump tally key amount) other
      = if other = key then some ((get tally key).getD 0 + amount) else get tally other :=
  get_modify _

theorem Distinct.bump (h : Distinct tally) (amount : μ) : Distinct (bump tally key amount) :=
  h.modify _

theorem Distinct.foldl_bump {ε : Type u} (h : Distinct tally) (events : List ε) (place : ε → κ)
    (amount : ε → μ)
    : Distinct (events.foldl
        (fun now event => InsertionMap.bump now (place event) (amount event)) tally) := by
  induction events generalizing tally with
  | nil => exact h
  | cons event rest ih => exact ih (h.bump (amount event))

theorem mem_keys_foldl_bump {ε : Type u} (events : List ε) (place : ε → κ) (amount : ε → μ)
    : key ∈ (events.foldl (fun now event => bump now (place event) (amount event)) tally).map
        Prod.fst
      ↔ key ∈ tally.map Prod.fst ∨ ∃ event ∈ events, key = place event := by
  induction events generalizing tally with
  | nil => simp
  | cons event rest ih =>
    rw [List.foldl_cons, ih, bump, mem_keys_modify, List.exists_mem_cons_iff, or_assoc,
      or_left_comm]

theorem total_fold_bump {ε : Type u} (events : List ε) (place : ε → κ) (amount : ε → μ)
    : total keep (events.foldl (fun now event => bump now (place event) (amount event)) tally)
      = total keep tally
        + (events.map fun event => if keep (place event) then amount event else 0).sum := by
  induction events generalizing tally with
  | nil => simp
  | cons event rest ih =>
    rw [List.foldl_cons, ih, total_bump, List.map_cons, List.sum_cons, add_assoc]

theorem Distinct.getD_get (h : Distinct tally) (key : κ)
    : (get tally key).getD 0 = total (fun place => decide (place = key)) tally := by
  induction tally with
  | nil => rfl
  | cons entry rest ih =>
    obtain ⟨first, held⟩ := entry
    obtain ⟨fresh, later⟩ := List.nodup_cons.mp h
    rw [total_cons, ← ih later]
    by_cases same : first = key
    · subst same
      simp [get_cons, get_eq_none fresh]
    · simp [get_cons, same]

section

variable {ι : Type u} [DecidableEq ι] {tallies : InsertionMap κ (InsertionMap ι μ)}

def bumpIn (tallies : InsertionMap κ (InsertionMap ι μ)) (key : κ) (inner : ι) (amount : μ)
    : InsertionMap κ (InsertionMap ι μ) :=
  modify key (fun held => bump (held.getD []) inner amount) tallies

def tallyOf (tallies : InsertionMap κ (InsertionMap ι μ)) (key : κ) : InsertionMap ι μ :=
  (get tallies key).getD []

variable {keep : ι → Bool}

theorem tallyOf_bumpIn (inner : ι) (amount : μ)
    : tallyOf (bumpIn tallies key inner amount) other
      = if other = key then bump (tallyOf tallies key) inner amount
        else tallyOf tallies other := by
  unfold tallyOf bumpIn
  rw [get_modify]
  split <;> rfl

theorem total_bumpIn (inner : ι) (amount : μ)
    : total keep (tallyOf (bumpIn tallies key inner amount) other)
      = total keep (tallyOf tallies other)
        + if key = other then (if keep inner then amount else 0) else 0 := by
  rw [tallyOf_bumpIn]
  by_cases same : other = key
  · subst same
    rw [if_pos rfl, if_pos rfl, total_bump]
  · have apart : key ≠ other := fun equal => same equal.symm
    rw [if_neg same, if_neg apart, add_zero]

theorem total_foldl_bumpIn (keys : List κ) (inner : ι) (amount : μ)
    : total keep (tallyOf
        (keys.foldl (fun tallies key => bumpIn tallies key inner amount) tallies) other)
      = total keep (tallyOf tallies other)
        + keys.count other • (if keep inner then amount else 0) := by
  induction keys generalizing tallies with
  | nil => simp
  | cons key rest ih =>
    rw [List.foldl_cons, ih, total_bumpIn, add_assoc, List.count_cons]
    congr 1
    by_cases same : key = other
    · subst same
      rw [if_pos rfl, if_pos (beq_self_eq_true key), add_nsmul, one_nsmul, add_comm]
    · simp [same]

end

end

end InsertionMap
