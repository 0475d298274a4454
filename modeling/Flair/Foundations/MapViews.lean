import Flair.Foundations.InsertionMap

/-! Views of a map: each key shows an image of its value, or nothing. An update that keeps
the image of its key keeps the whole view.
-/

universe u v

namespace InsertionMap

variable {κ : Type u} {ν : Type v} [DecidableEq κ] {map : InsertionMap κ ν} {key : κ}

@[simp] theorem set_set (first next : ν) : set (set map key first) key next = set map key next := by
  unfold InsertionMap.set
  induction map with
  | nil => simp [modify]
  | cons entry rest ih =>
    obtain ⟨other, value⟩ := entry
    by_cases here : other = key
    · simp [modify, here]
    · simp [modify, here, ih]

theorem set_self {value : ν} (held : get map key = some value) : set map key value = map := by
  unfold InsertionMap.set
  induction map with
  | nil => cases held
  | cons entry rest ih =>
    obtain ⟨other, value'⟩ := entry
    by_cases here : other = key
    · obtain rfl : value' = value := by simpa [get, here] using held
      simp [modify, here]
    · simp [modify, here, ih (by simpa [get, here] using held)]

def view (image : κ → ν → Option ν) (map : InsertionMap κ ν) : InsertionMap κ ν :=
  map.filterMap fun entry => (image entry.1 entry.2).map (Prod.mk entry.1)

variable {image : κ → ν → Option ν}

omit [DecidableEq κ] in
theorem view_cons (entry : κ × ν)
    : view image (entry :: map)
      = ((image entry.1 entry.2).map (Prod.mk entry.1)).toList ++ view image map := by
  unfold view
  cases shown : image entry.1 entry.2 <;> simp [shown]

theorem view_set {value : ν} (same : image key value = (get map key).bind (image key))
    : view image (set map key value) = view image map := by
  unfold InsertionMap.set
  induction map with
  | nil =>
    have hidden : image key value = none := same
    simp [modify, view, hidden]
  | cons entry rest ih =>
    obtain ⟨other, held⟩ := entry
    by_cases here : other = key
    · subst here
      have shown : image other value = image other held := by simpa [get] using same
      simp only [modify, ↓reduceIte, view_cons, shown]
    · simp only [modify, here, ↓reduceIte, view_cons]
      rw [ih (by simpa [get, here] using same)]

theorem view_delete (distinct : Distinct map) (hidden : (get map key).bind (image key) = none)
    : view image (delete map key) = view image map := by
  unfold delete
  induction map with
  | nil => rfl
  | cons entry rest ih =>
    obtain ⟨other, held⟩ := entry
    obtain ⟨fresh, later⟩ := List.nodup_cons.mp distinct
    by_cases here : other = key
    · subst here
      have hides : image other held = none := by simpa [get] using hidden
      have kept : rest.filter (fun entry => decide (entry.1 ≠ other)) = rest := by
        rw [List.filter_eq_self]
        rintro ⟨place, value⟩ member
        have apart : place ≠ other := fun same =>
          fresh (List.mem_map.mpr ⟨(place, value), member, same⟩)
        simpa using apart
      rw [view_cons, List.filter_cons_of_neg (by simp), kept]
      simp [hides]
    · rw [List.filter_cons_of_pos (by simpa using here), view_cons, view_cons,
        ih later (by simpa [get, here] using hidden)]

end InsertionMap
