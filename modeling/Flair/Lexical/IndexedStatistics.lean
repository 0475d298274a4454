import Flair.Lexical.IndexMaintenance
import Mathlib.Algebra.Module.BigOperators
import Mathlib.Algebra.Order.BigOperators.Group.Finset

/-! What a query reads from the index, as sums over the rows the index holds.
-/

namespace Flair.Lexical

open Dynamic InsertionMap

variable {engine : Engine} {index : Bm25Index} {contents : IndexContents} {rows : List Record}

-- The rows and their slots

structure RowsHeld (rows : List Record) (contents : IndexContents) : Prop where
  distinct : (rows.map fun row => (docOf row).id).Nodup
  kept : ∀ row ∈ rows, ∃ record, project row = some record ∧ contents record.id = some record
  known : ∀ id record, contents id = some record → ∃ row ∈ rows, project row = some record

def placeOf (index : Bm25Index) (row : Record) : Nat :=
  (index.slotOf.get (docOf row).id).getD 0

theorem project_some {row : Record} {record : IndexRecord} (h : project row = some record)
    : record.id = (docOf row).id ∧ recordTokens record = docTokens (docOf row)
      ∧ AgreeOn indexMetaAttrs (storedFields record) row := by
  unfold project at h
  split at h
  · rename_i id named
    cases h
    refine ⟨?_, ?_, ?_⟩
    · simp [docOf, named, asString]
    · have kept : (row.filter fun field _ => field ∈ indexSelect).get "content"
          = row.get "content" := by
        rw [Record.get_filter]
        cases row.get "content" <;> simp [Option.filter, indexSelect]
      simp [recordTokens, recordText, docTokens, docOf, kept]
    · intro field listed
      have apart : field ≠ "id" := by
        rintro rfl
        simp [indexMetaAttrs, supportedScopeAttrs, temporalAttrs] at listed
      have selected : field ∈ indexSelect := by
        rcases List.mem_append.mp listed with scope | temporal
        · exact List.mem_append_left _ (List.mem_append_right _ scope)
        · exact List.mem_append_right _ temporal
      rw [storedFields_get, if_neg apart, if_pos listed, Record.get_filter]
      cases row.get field <;> simp [Option.filter, selected]
  · cases h

theorem RowsHeld.placed (held : RowsHeld rows contents) (h : Represents engine index contents)
    {row : Record} (member : row ∈ rows)
    : ∃ record, project row = some record ∧ contents record.id = some record
        ∧ index.slotOf.get record.id = some (placeOf index row)
        ∧ index.slots (placeOf index row) = some (slotFor engine record) := by
  obtain ⟨record, projected, known⟩ := held.kept row member
  obtain ⟨slot, placed⟩ := h.slots.placed record.id record known
  obtain ⟨same, found, there⟩ := h.slots.found record.id slot placed
  rw [known] at found
  cases found
  have place : placeOf index row = slot := by
    rw [placeOf, ← (project_some projected).1, placed]
    rfl
  rw [place]
  exact ⟨record, projected, known, placed, there⟩

section

variable {active : Nat → Option Slot} {slotCount : Nat} {tally : InsertionMap String Agg}
variable {times : Slot → Nat}

structure Counts (active : Nat → Option Slot) (slotCount : Nat) (times : Slot → Nat)
    (tally : InsertionMap String Agg) : Prop where
  distinct : Distinct tally
  totals : ∀ keep, total keep tally
    = sumSlots slotCount active fun entry => times entry • weight keep entry

theorem sumSlots_fst (f : Slot → Agg)
    : (sumSlots slotCount active f).1 = sumSlots slotCount active fun entry => (f entry).1 := by
  unfold sumSlots
  rw [Prod.fst_sum]
  apply Finset.sum_congr rfl
  intro slot _
  cases active slot <;> rfl

theorem Counts.whole (h : Counts active slotCount times tally) {entry : String × Agg}
    (member : entry ∈ tally) (none_counted : entry.2.1 = 0)
    : entry.2 = 0 := by
  have held := h.distinct.getD_get entry.1
  rw [h.distinct.get_of_mem member, Option.getD_some, h.totals] at held
  have counted : ∀ slot ∈ Finset.range slotCount,
      (active slot).elim 0 (fun document =>
        (times document • weight (fun place => decide (place = entry.1)) document).1) = 0 := by
    rw [← Finset.sum_eq_zero_iff_of_nonneg]
    · have first := congrArg Prod.fst held
      rw [none_counted, sumSlots_fst] at first
      exact first.symm
    · intro slot _
      cases active slot with
      | none => exact Int.le_refl 0
      | some document =>
        rw [Option.elim_some]
        unfold weight
        split <;> simp
  rw [held]
  apply Finset.sum_eq_zero
  intro slot inside
  have here := counted slot inside
  cases there : active slot with
  | none => rfl
  | some document =>
    rw [there, Option.elim_some] at here
    rw [Option.elim_some]
    unfold weight at here ⊢
    split
    · rename_i kept
      rw [if_pos kept] at here
      have zero : times document = 0 := by simpa using here
      rw [zero, zero_nsmul]
    · rw [nsmul_zero]

end

/-- How often a plan's aggregates list a document. -/
def timesListed (engine : Engine) (facet : Option (String × List String)) (entry : Slot) : Nat :=
  match facet with
  | none => 1
  | some (attr, values) =>
    (values.map fun value => (facetKeysOf engine entry.stored).count (facetKey attr value)).sum

def sourceOf (index : Bm25Index) (plan : QueryPlan) : InsertionMap String Agg :=
  match plan.facet with
  | some (attr, values) => index.mergeFacetAggregates attr values
  | none => index.partitions

section

variable {params : RankParams} {plan : QueryPlan}

/-- How often the aggregates count a document for a query: not at all once it is retired or
its bound is past, or while the plan does not keep its partition.
-/
def timesCounted (engine : Engine) (index : Bm25Index) (params : RankParams) (plan : QueryPlan)
    (slot : Nat) (entry : Slot) : Nat :=
  if slot ∈ index.retired ∨ (entry.expiry.any fun bound => decide (bound < params.now)) = true
      ∨ index.judged params plan entry.pkey = false then 0
  else timesListed engine plan.facet entry

def CountedOnce (engine : Engine) (index : Bm25Index) (params : RankParams) (plan : QueryPlan)
    : Prop :=
  ∀ slot entry, index.slots slot = some entry
    → timesCounted engine index params plan slot entry
      = if params.inScope engine entry.stored then 1 else 0

end

end Flair.Lexical
