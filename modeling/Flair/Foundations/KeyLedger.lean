import Mathlib.Data.List.Count

/-! A per-key mutual exclusion primitive with the ledger of what it did: `tryLock` takes a
free key, `unlock` frees a key whoever held it. Rules for the keys one owner holds and for
the balance of its takings and releases.
-/

namespace KeyLedger

universe u v

variable {Key : Type u} {Owner : Type v}

inductive Event (Key : Type u) (Owner : Type v) where
  | locked (owner : Owner) (key : Key)
  | unlocked (owner : Owner) (key : Key)
deriving DecidableEq

/-- Who holds each key, and every taking and release so far. -/
structure Ledger (Key : Type u) (Owner : Type v) where
  holder : Key → Option Owner
  log : List (Event Key Owner)

namespace Ledger

def fresh : Ledger Key Owner where
  holder _ := none
  log := []

def HoldsExactly (ledger : Ledger Key Owner) (owner : Owner) (keys : List Key) : Prop :=
  ∀ key, ledger.holder key = some owner ↔ key ∈ keys

theorem holdsExactly_fresh (owner : Owner)
    : (fresh : Ledger Key Owner).HoldsExactly owner [] := by
  intro key
  simp [fresh]

variable {key : Key}

theorem HoldsExactly.disjoint {ledger : Ledger Key Owner} {left right : Owner}
    {leftKeys rightKeys : List Key} (h : ledger.HoldsExactly left leftKeys)
    (other : ledger.HoldsExactly right rightKeys) (different : left ≠ right)
    (member : key ∈ leftKeys)
    : key ∉ rightKeys := by
  intro shared
  have both := ((h key).mpr member).symm.trans ((other key).mpr shared)
  exact different (Option.some.inj both)

theorem HoldsExactly.unique {ledger : Ledger Key Owner} {owner another : Owner}
    {left right : Option Key} (h : ledger.HoldsExactly owner left.toList)
    (also : ledger.HoldsExactly another right.toList) (holds : left = some key)
    (alsoHolds : right = some key)
    : owner = another := by
  have first := (h key).mpr (by simp [holds])
  have second := (also key).mpr (by simp [alsoHolds])
  exact Option.some.inj (first.symm.trans second)

variable [DecidableEq Key]

def tryLock (ledger : Ledger Key Owner) (owner : Owner) (key : Key)
    : Option (Ledger Key Owner) :=
  match ledger.holder key with
  | some _ => none
  | none => some {
      holder := Function.update ledger.holder key (some owner)
      log := ledger.log ++ [.locked owner key] }

def unlock (ledger : Ledger Key Owner) (owner : Owner) (key : Key) : Ledger Key Owner where
  holder := Function.update ledger.holder key none
  log := ledger.log ++ [.unlocked owner key]

theorem tryLock_eq_some {ledger next : Ledger Key Owner} {owner : Owner}
    (h : ledger.tryLock owner key = some next)
    : ledger.holder key = none
      ∧ next.holder = Function.update ledger.holder key (some owner)
      ∧ next.log = ledger.log ++ [.locked owner key] := by
  unfold tryLock at h
  split at h
  · cases h
  · rename_i free
    cases h
    exact ⟨free, rfl, rfl⟩

-- The keys one owner holds

variable {keys : List Key}

theorem HoldsExactly.take {ledger next : Ledger Key Owner} {owner : Owner}
    (h : ledger.HoldsExactly owner keys) (taken : ledger.tryLock owner key = some next)
    : next.HoldsExactly owner (key :: keys) := by
  obtain ⟨-, holder, -⟩ := tryLock_eq_some taken
  intro other
  by_cases same : other = key
  · subst same
    simp [holder]
  · simp [holder, same, h other]

theorem HoldsExactly.take_other {ledger next : Ledger Key Owner} {owner other : Owner}
    (h : ledger.HoldsExactly other keys) (taken : ledger.tryLock owner key = some next)
    (different : other ≠ owner)
    : next.HoldsExactly other keys := by
  obtain ⟨free, holder, -⟩ := tryLock_eq_some taken
  intro wanted
  rw [← h wanted, holder]
  by_cases same : wanted = key
  · subst same
    simp [free, different.symm]
  · simp [same]

theorem HoldsExactly.release {ledger : Ledger Key Owner} {owner : Owner}
    (h : ledger.HoldsExactly owner (key :: keys)) (fresh : key ∉ keys)
    : (ledger.unlock owner key).HoldsExactly owner keys := by
  intro other
  by_cases same : other = key
  · subst same
    simp [unlock, fresh]
  · simp [unlock, same, h other]

theorem HoldsExactly.release_other {ledger : Ledger Key Owner} {owner other : Owner}
    (h : ledger.HoldsExactly other keys) (held : ledger.holder key = some owner)
    (different : other ≠ owner)
    : (ledger.unlock owner key).HoldsExactly other keys := by
  intro wanted
  rw [← h wanted]
  by_cases same : wanted = key
  · subst same
    simp [unlock, held, different.symm]
  · simp [unlock, same]

-- Owners of one key at a time

/-- What a step of its owner does to the ledger, from the key the owner held to the one it
holds after: nothing, a taking or a release.
-/
def Moves (ledger next : Ledger Key Owner) (owner : Owner) : Option Key → Option Key → Prop
  | none, none => next = ledger
  | none, some key => ledger.tryLock owner key = some next
  | some key, none => next = ledger.unlock owner key
  | some key, some other => key = other ∧ next = ledger

variable {ledger next : Ledger Key Owner} {owner another : Owner} {before after : Option Key}

theorem Moves.own (h : ledger.Moves next owner before after)
    (holds : ledger.HoldsExactly owner before.toList)
    : next.HoldsExactly owner after.toList := by
  cases before with
  | none =>
    cases after with
    | none => exact h ▸ holds
    | some key => exact holds.take h
  | some key =>
    cases after with
    | none =>
      have freed : next = ledger.unlock owner key := h
      rw [freed]
      exact holds.release (by simp)
    | some _ =>
      obtain ⟨rfl, rfl⟩ := h
      exact holds

theorem Moves.other (h : ledger.Moves next owner before after)
    (holds : ledger.HoldsExactly owner before.toList) (also : ledger.HoldsExactly another keys)
    (different : another ≠ owner)
    : next.HoldsExactly another keys := by
  cases before with
  | none =>
    cases after with
    | none => exact h ▸ also
    | some key => exact also.take_other h different
  | some key =>
    have held : ledger.holder key = some owner := (holds key).mpr (by simp)
    cases after with
    | none =>
      have freed : next = ledger.unlock owner key := h
      rw [freed]
      exact also.release_other held different
    | some _ =>
      obtain ⟨-, rfl⟩ := h
      exact also

-- The balance of takings and releases

variable [DecidableEq Owner]

/-- Every owner took each key as often as it released it, once more while it holds it. -/
def Balanced (ledger : Ledger Key Owner) : Prop :=
  ∀ owner key, ledger.log.count (.locked owner key)
    = ledger.log.count (.unlocked owner key)
      + if ledger.holder key = some owner then 1 else 0

theorem balanced_fresh : (fresh : Ledger Key Owner).Balanced := by
  intro owner key
  simp [fresh]

theorem Balanced.take {ledger next : Ledger Key Owner} {owner : Owner} (h : ledger.Balanced)
    (taken : ledger.tryLock owner key = some next)
    : next.Balanced := by
  obtain ⟨free, holder, log⟩ := tryLock_eq_some taken
  intro other wanted
  have before := h other wanted
  rw [holder, log]
  simp only [List.count_append, List.count_singleton]
  by_cases sameKey : wanted = key
  · subst sameKey
    by_cases sameOwner : other = owner
    · subst sameOwner
      simp [free] at before ⊢
      omega
    · simp [free, Ne.symm sameOwner] at before ⊢
      omega
  · simp [sameKey, Ne.symm sameKey] at before ⊢
    omega

theorem Balanced.release {ledger : Ledger Key Owner} {owner : Owner} (h : ledger.Balanced)
    (held : ledger.holder key = some owner)
    : (ledger.unlock owner key).Balanced := by
  intro other wanted
  have before := h other wanted
  simp only [unlock, List.count_append, List.count_singleton]
  by_cases sameKey : wanted = key
  · subst sameKey
    by_cases sameOwner : other = owner
    · subst sameOwner
      simp [held] at before ⊢
      omega
    · simp [held, Ne.symm sameOwner] at before ⊢
      omega
  · simp [sameKey, Ne.symm sameKey] at before ⊢
    omega

end Ledger

end KeyLedger
