import Flair.Lexical.IndexedScores

/-! The indexed lexical leg against the scan: for any history of upserts, removals and
queries, the index answers what the scan answers as long as its aggregates count each row
that the query ranks once and no other.
-/

namespace Flair.Lexical

open Dynamic InsertionMap

variable {engine : Engine} {index : Bm25Index} {contents : IndexContents} {rows : List Record}
variable {params : RankParams} {plan : QueryPlan}

-- Statistics of the ranked rows

section

variable {K : Type*} [Field K] [LinearOrder K]

end

-- Histories

namespace IndexOp

end IndexOp

theorem CountedOnce.swept {after : Bm25Index} (counted : CountedOnce engine index params plan)
    (only : OnlyRetired params.now index after)
    : CountedOnce engine after params plan := by
  intro slot entry there
  rw [only.slots] at there
  rw [← counted slot entry there]
  unfold timesCounted Bm25Index.judged
  rw [only.partitionRep]
  by_cases gone : slot ∈ after.retired
  · have past : slot ∈ index.retired
        ∨ (entry.expiry.any fun bound => decide (bound < params.now)) = true := by
      rcases only.retired slot gone with earlier | ⟨other, expiry, found, bound, past⟩
      · exact Or.inl earlier
      rw [there] at found
      cases found
      rw [bound]
      exact Or.inr (decide_eq_true past)
    rw [if_pos (Or.inl gone)]
    rcases past with earlier | past
    · rw [if_pos (Or.inl earlier)]
    · rw [if_pos (Or.inr (Or.inl past))]
  · have before : slot ∉ index.retired := fun earlier => gone (only.grows earlier)
    simp only [gone, before, false_or]

def textEngine : Engine where
  dateParse := fun _ => none
  dateTime := fun _ => none
  string := fun value => (asString value).getD ""

end Flair.Lexical
