import Flair.Foundations.InsertionMap
import Mathlib.Data.Rat.Floor

/-! The fixed-window limiter of the OAuth and MCP surfaces: one bounded table holds the
buckets of every policy. Follows `resources/rate-limit.ts`.
-/

namespace Flair.RateLimits

/-- What a policy allows: a number of requests in a window. Neither is ever zero. -/
structure Policy where
  bucket : String
  limit : Nat
  windowMs : Int
  limitPositive : 0 < limit
  windowPositive : 0 < windowMs

structure Bucket where
  windowStart : Int
  count : Nat
deriving DecidableEq

abbrev Buckets := InsertionMap String Bucket

structure Decision where
  limited : Bool
  limit : Nat
  retryAfterSec : Int

def maxTrackedKeys : Nat := 20000

-- Policies

inductive Surface where
  | oauth | register | mcp
deriving DecidableEq

def Surface.name : Surface → String
  | oauth => "oauth"
  | register => "register"
  | mcp => "mcp"

def opens (existing : Option Bucket) (policy : Policy) (now : Int) : Bool :=
  match existing with
  | none => true
  | some bucket => decide (policy.windowMs ≤ now - bucket.windowStart)

def nextBucket (existing : Option Bucket) (policy : Policy) (now : Int) : Bucket :=
  match existing with
  | none => ⟨now, 1⟩
  | some bucket =>
    if policy.windowMs ≤ now - bucket.windowStart then ⟨now, 1⟩
    else ⟨bucket.windowStart, bucket.count + 1⟩

def aged (now windowMs : Int) (entry : String × Bucket) : Bool :=
  decide (windowMs ≤ now - entry.2.windowStart)

/-- One pass of the eviction: in the table's order, drop the selected entries while the
table is too large.
-/
def evictWhere (drop : String × Bucket → Bool) : Buckets → Nat → Buckets
  | [], _ => []
  | entry :: rest, size =>
    if size ≤ maxTrackedKeys then entry :: rest
    else if drop entry then evictWhere drop rest (size - 1)
    else entry :: evictWhere drop rest size

/-- `evictOldest`: entries that are over by the calling policy's window first, then the
least recently used ones.
-/
def evictOldest (now windowMs : Int) (buckets : Buckets) : Buckets :=
  let fresh := evictWhere (aged now windowMs) buckets buckets.length
  evictWhere (fun _ => true) fresh fresh.length

/-- The table with a key's bucket replaced and moved to the back. -/
def touch (buckets : Buckets) (key : String) (bucket : Bucket) : Buckets :=
  (buckets.delete key).set key bucket

def evict (now windowMs : Int) (buckets : Buckets) : Buckets :=
  if maxTrackedKeys < buckets.length then evictOldest now windowMs buckets else buckets

def consume (buckets : Buckets) (key : String) (policy : Policy) (now : Int)
    : Decision × Buckets :=
  let bucket := nextBucket (buckets.get key) policy now
  let decision := {
    limited := decide (policy.limit < bucket.count)
    limit := policy.limit
    retryAfterSec := max 1 ⌈((policy.windowMs - (now - bucket.windowStart) : Int) : Rat) / 1000⌉ }
  (decision, evict now policy.windowMs (touch buckets key bucket))

-- What the table does

theorem touch_eq (buckets : Buckets) (key : String) (bucket : Bucket)
    : touch buckets key bucket = buckets.delete key ++ [(key, bucket)] :=
  InsertionMap.set_fresh (by simp)

theorem get_touch (buckets : Buckets) (key other : String) (bucket : Bucket)
    : (touch buckets key bucket).get other
      = if other = key then some bucket else buckets.get other := by
  by_cases same : other = key <;> simp [touch, same]

theorem length_touch_le (buckets : Buckets) (key : String) (bucket : Bucket)
    : (touch buckets key bucket).length ≤ buckets.length + 1 := by
  have fewer : (buckets.delete key).length ≤ buckets.length := List.length_filter_le _ _
  rw [touch_eq, List.length_append, List.length_singleton]
  omega

variable {buckets : Buckets}

theorem evictWhere_within (drop : String × Bucket → Bool) {size : Nat}
    (within : size ≤ maxTrackedKeys)
    : evictWhere drop buckets size = buckets := by
  cases buckets with
  | nil => rfl
  | cons entry rest => rw [evictWhere, if_pos within]

/-- One entry too many: a pass drops the first selected entry, by induction on the table. -/
theorem evictWhere_full (drop : String × Bucket → Bool) {size : Nat}
    (full : size = maxTrackedKeys + 1)
    : evictWhere drop buckets size = buckets.eraseP drop := by
  induction buckets with
  | nil => rfl
  | cons entry rest ih =>
    rw [evictWhere, if_neg (by omega)]
    cases selected : drop entry with
    | true =>
      rw [if_pos rfl, List.eraseP_cons_of_pos selected]
      exact evictWhere_within drop (by omega)
    | false =>
      rw [if_neg (by simp), List.eraseP_cons_of_neg (by simp [selected]), ih]

/-- A table with one entry too many loses exactly one: the first that is over by the
calling policy's window, and the first of all when there is none.
-/
theorem evictOldest_full (now windowMs : Int) (full : buckets.length = maxTrackedKeys + 1)
    : ∃ front victim back, buckets = front ++ victim :: back
      ∧ evictOldest now windowMs buckets = front ++ back
      ∧ (buckets.find? (aged now windowMs) = some victim
        ∨ (buckets.find? (aged now windowMs) = none ∧ front = [])) := by
  unfold evictOldest
  rw [evictWhere_full _ full]
  cases found : buckets.find? (aged now windowMs) with
  | none =>
    have none_aged : ∀ entry ∈ buckets, ¬ aged now windowMs entry :=
      List.find?_eq_none.mp found
    rw [List.eraseP_of_forall_not none_aged]
    simp only [evictWhere_full _ full]
    cases buckets with
    | nil => cases full
    | cons entry rest => exact ⟨[], entry, rest, rfl, by simp, Or.inr ⟨trivial, rfl⟩⟩
  | some victim =>
    obtain ⟨isAged, front, back, split, before⟩ := List.find?_eq_some_iff_append.mp found
    have unselected : ∀ entry ∈ front, ¬ aged now windowMs entry := by
      intro entry member
      simpa using before entry member
    have shorter : buckets.eraseP (aged now windowMs) = front ++ back := by
      rw [split, List.eraseP_append_right _ unselected, List.eraseP_cons_of_pos isAged]
    have fits : (front ++ back).length ≤ maxTrackedKeys := by
      rw [split, List.length_append, List.length_cons] at full
      rw [List.length_append]
      omega
    refine ⟨front, victim, back, split, ?_, Or.inl rfl⟩
    simp only [shorter, evictWhere_within _ fits]

end Flair.RateLimits
