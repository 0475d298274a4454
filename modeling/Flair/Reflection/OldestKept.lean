import Flair.Foundations.LeastKept
import Flair.Reflection.ReflectScope
import Mathlib.Data.String.Basic

/-! The streaming cap keeps the oldest unreflected memories of what the gather loop offers it. -/

namespace Flair.Reflection

/-- `localeCompare` is a consistent comparison: a total preorder on texts. -/
structure Host.Collates (host : Host) : Prop where
  flip : ∀ a b, 0 < host.localeCompare a b ↔ host.localeCompare b a < 0
  trans : ∀ a b c, host.localeCompare a b ≤ 0 → host.localeCompare b c ≤ 0 →
    host.localeCompare a c ≤ 0

/-- Unreflected first, then oldest first. -/
abbrev NotAfter (host : Host) (a b : ReflectMemory) : Prop :=
  compareOldestUnreflectedFirst host a b ≤ 0

variable {host : Host}

theorem created_flip (collates : host.Collates) (a b : ReflectMemory)
    : 0 < compareOldestCreatedAtFirst host a b
      ↔ compareOldestCreatedAtFirst host b a < 0 := by
  have texts := collates.flip (a.createdAt.getD "") (b.createdAt.getD "")
  unfold compareOldestCreatedAtFirst
  by_cases undated : a.createdAt.getD "" = "" <;>
    by_cases undated' : b.createdAt.getD "" = "" <;> simp [undated, undated', texts]

theorem created_trans (collates : host.Collates) {a b c : ReflectMemory}
    (first : compareOldestCreatedAtFirst host a b ≤ 0)
    (second : compareOldestCreatedAtFirst host b c ≤ 0)
    : compareOldestCreatedAtFirst host a c ≤ 0 := by
  have texts := collates.trans (a.createdAt.getD "") (b.createdAt.getD "") (c.createdAt.getD "")
  unfold compareOldestCreatedAtFirst at *
  by_cases undated : a.createdAt.getD "" = "" <;>
    by_cases undated' : b.createdAt.getD "" = "" <;>
      by_cases undated'' : c.createdAt.getD "" = "" <;> simp_all

theorem compare_flip (collates : host.Collates) (a b : ReflectMemory)
    : 0 < compareOldestUnreflectedFirst host a b
      ↔ compareOldestUnreflectedFirst host b a < 0 := by
  have created := created_flip collates a b
  unfold compareOldestUnreflectedFirst
  cases isUnreflectedMemory a <;> cases isUnreflectedMemory b <;> simp [created]

theorem compare_trans (collates : host.Collates) {a b c : ReflectMemory}
    (first : compareOldestUnreflectedFirst host a b ≤ 0)
    (second : compareOldestUnreflectedFirst host b c ≤ 0)
    : compareOldestUnreflectedFirst host a c ≤ 0 := by
  have created := @created_trans host collates a b c
  revert first second
  unfold compareOldestUnreflectedFirst
  cases isUnreflectedMemory a <;> cases isUnreflectedMemory b <;>
    cases isUnreflectedMemory c <;> simp_all

variable {seen kept : List ReflectMemory} {maxN : Int}

/-- One record keeps the invariant, by the branch that is taken. -/
theorem leastKept_consider (collates : host.Collates)
    (h : LeastKept (NotAfter host) maxN.toNat seen kept) (record : ReflectMemory)
    : LeastKept (NotAfter host) maxN.toNat (seen ++ [record])
        (considerForOldestUnreflectedCap host kept record maxN) := by
  have total : Std.Total (NotAfter host) := ⟨fun a b => by
    have flip := compare_flip collates a b
    simp only [NotAfter]
    omega⟩
  have transitive : IsTrans ReflectMemory (NotAfter host) :=
    ⟨fun _ _ _ => compare_trans collates⟩
  have size := h.size
  unfold considerForOldestUnreflectedCap
  split
  · rename_i closed
    rw [Int.toNat_of_nonpos closed] at h ⊢
    exact h.closed record
  split
  · exact h.add (by omega) record
  rename_i positive full
  rcases List.eq_nil_or_concat kept with rfl | ⟨front, worst, rfl⟩
  · simp at full
    omega
  rw [List.concat_eq_append] at *
  have filled : (front ++ [worst]).length = maxN.toNat := by omega
  rw [List.getLast?_concat, List.dropLast_concat]
  dsimp only
  split
  · rename_i before
    exact h.replace filled before.le
  · rename_i after
    have flip := compare_flip collates worst record
    exact h.pass filled (by omega)

/-- Folding the cap over a sequence leaves, in order, as many of its records as the cap allows,
none of them after one that is left out: the least of the oldest-unreflected order.
-/
theorem cap_keeps_oldest_unreflected (host : Host) (collates : host.Collates)
    (records : List ReflectMemory) (maxN : Int)
    : LeastKept (NotAfter host) maxN.toNat records
        (records.foldl (fun pool record => considerForOldestUnreflectedCap host pool record maxN)
          []) := by
  induction records using List.reverseRecOn with
  | nil => exact LeastKept.empty _ _
  | append_singleton records record ih =>
    rw [List.foldl_append]
    exact leastKept_consider collates ih record

def compareTexts {τ : Type} [LinearOrder τ] (a b : τ) : Int :=
  if a < b then -1 else if b < a then 1 else 0

theorem compareTexts_nonpos {τ : Type} [LinearOrder τ] (a b : τ)
    : compareTexts a b ≤ 0 ↔ a ≤ b := by
  unfold compareTexts
  rcases lt_trichotomy a b with less | rfl | more
  · simp [less, less.le]
  · simp
  · simp [more, more.not_gt]

theorem compareTexts_neg {τ : Type} [LinearOrder τ] (a b : τ) : compareTexts a b < 0 ↔ a < b := by
  unfold compareTexts
  split <;> [simpa; split <;> simp_all]

/-- Texts in the order of their code points, as dates of one form collate. -/
def dateHost : Host := ⟨fun _ => none, compareTexts⟩

theorem dateHost_collates : dateHost.Collates where
  flip := by
    intro a b
    change 0 < compareTexts a b ↔ compareTexts b a < 0
    rw [lt_iff_not_ge, compareTexts_nonpos, not_le, compareTexts_neg]
  trans := by
    intro a b c
    change compareTexts a b ≤ 0 → compareTexts b c ≤ 0 → compareTexts a c ≤ 0
    rw [compareTexts_nonpos, compareTexts_nonpos, compareTexts_nonpos]
    exact le_trans

def datedMemory (createdAt lastReflected : Option String) : ReflectMemory :=
  { (default : ReflectMemory) with createdAt := createdAt, lastReflected := lastReflected }

theorem cap_keeps_oldest_unreflected_of_three
    : let records := [datedMemory (some "2026-03-01") none, datedMemory none (some "2026-04-01"),
        datedMemory (some "2026-01-01") none]
      LeastKept (NotAfter dateHost) 2 records
        (records.foldl (fun pool record => considerForOldestUnreflectedCap dateHost pool record 2)
          []) :=
  cap_keeps_oldest_unreflected dateHost dateHost_collates _ 2

end Flair.Reflection
