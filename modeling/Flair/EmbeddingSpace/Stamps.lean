import Flair.Foundations.Objects
import Flair.Foundations.Text

/-! The model stamps of stored embeddings and what a row's stamp and vector say about the
current embedding space. Follows the pure core of `resources/embedding-space-guard.ts`.
-/

namespace Flair.EmbeddingSpace

open Dynamic

def embeddingEngine : String := "gguf"

def nonSpaceStamps : List String := ["hash-512d"]

/-- The engine-qualified space id of a stamp; `none` for a stamp that names no space. -/
def normalizeStamp : Option String → Option String
  | none => none
  | some stamp =>
    let s := trim stamp
    if s = "" ∨ s ∈ nonSpaceStamps then none
    else if ':' ∈ s.toList then some s
    else some (embeddingEngine ++ ":" ++ s)

def stripEnginePrefix (stamp : String) : String :=
  if ':' ∈ stamp.toList then String.ofList ((stamp.toList.dropWhile (· ≠ ':')).drop 1)
  else stamp

def currentSpaceRawForms (currentModelId : String) : List String :=
  if stripEnginePrefix currentModelId = currentModelId then [currentModelId]
  else [currentModelId, stripEnginePrefix currentModelId]

def isTrustedRawStamp (stamp : Option String) (currentModelId : String) : Bool :=
  match stamp with
  | some text => decide (text ∈ currentSpaceRawForms currentModelId)
  | none => false

def isCurrentSpaceStamp (stamp : Option String) (currentModelId : String) : Bool :=
  (normalizeStamp stamp).isSome
    && decide (normalizeStamp stamp = normalizeStamp (some currentModelId))

/-- What a row stores as its embedding: an ordinary value, a typed array or a `DataView`. -/
inductive StoredEmbedding where
  | value (value : Option Value)
  | typedArray
  | dataView
deriving DecidableEq

def hasStoredVector : StoredEmbedding → Bool
  | .value (some (.arr _)) => true
  | .value _ => false
  | .typedArray => true
  | .dataView => false

/-- The two fields a scan projects. -/
structure StampedRow where
  embeddingModel : Option Value
  embedding : StoredEmbedding
deriving DecidableEq

def StampedRow.raw (row : StampedRow) : Option String := asString row.embeddingModel

def StampedRow.foreign (row : StampedRow) (currentModelId : String) : Bool :=
  (normalizeStamp row.raw).isSome
    && decide (normalizeStamp row.raw ≠ normalizeStamp (some currentModelId))

def StampedRow.untrustedVector (row : StampedRow) (currentModelId : String) : Bool :=
  hasStoredVector row.embedding && !isTrustedRawStamp row.raw currentModelId

def maxDiagStamps : Nat := 12

-- The accumulators of a scan

/-- What the loop of `scan` accumulates over the rows it reads. -/
structure ScanTally where
  seen : List String
  uniform : Bool
  excluded : Nat
deriving DecidableEq

def emptyTally : ScanTally where
  seen := []
  uniform := true
  excluded := 0

/-- `if (seen.size < MAX_DIAG_STAMPS) seen.add(n)` on a set in insertion order. -/
def addSeen (seen : List String) (n : String) : List String :=
  if seen.length < maxDiagStamps ∧ n ∉ seen then seen ++ [n] else seen

/-- One round of the loop of `scan`. -/
def countRow (currentModelId : String) (tally : ScanTally) (row : StampedRow) : ScanTally where
  seen :=
    match normalizeStamp row.raw with
    | some n => addSeen tally.seen n
    | none => tally.seen
  uniform := tally.uniform && !row.foreign currentModelId
  excluded := if row.untrustedVector currentModelId then tally.excluded + 1 else tally.excluded

def tallyRows (currentModelId : String) (rows : List StampedRow) : ScanTally :=
  rows.foldl (countRow currentModelId) emptyTally

variable {currentModelId : String} {rows : List StampedRow}

theorem foldl_uniform {tally : ScanTally}
    (h : (rows.foldl (countRow currentModelId) tally).uniform = true)
    : tally.uniform = true ∧ ∀ row ∈ rows, row.foreign currentModelId = false := by
  induction rows generalizing tally with
  | nil => exact ⟨h, by simp⟩
  | cons row rest ih =>
    obtain ⟨now, later⟩ := ih h
    simp only [countRow, Bool.and_eq_true, Bool.not_eq_true'] at now
    exact ⟨now.1, List.forall_mem_cons.mpr ⟨now.2, later⟩⟩

theorem foldl_excluded {tally : ScanTally}
    (h : (rows.foldl (countRow currentModelId) tally).excluded = 0)
    : tally.excluded = 0 ∧ ∀ row ∈ rows, row.untrustedVector currentModelId = false := by
  induction rows generalizing tally with
  | nil => exact ⟨h, by simp⟩
  | cons row rest ih =>
    obtain ⟨now, later⟩ := ih h
    simp only [countRow] at now
    split at now
    · omega
    · rename_i trusted
      exact ⟨now, List.forall_mem_cons.mpr ⟨Bool.eq_false_iff.mpr trusted, later⟩⟩

theorem tallyRows_uniform (h : (tallyRows currentModelId rows).uniform = true)
    : ∀ row ∈ rows, row.foreign currentModelId = false :=
  (foldl_uniform h).2

theorem tallyRows_excluded (h : (tallyRows currentModelId rows).excluded = 0)
    : ∀ row ∈ rows, row.untrustedVector currentModelId = false :=
  (foldl_excluded h).2

end Flair.EmbeddingSpace
