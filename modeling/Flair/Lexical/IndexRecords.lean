import Flair.Foundations.Objects

/-! What the BM25 index stores of a Memory row. Follows the attribute lists of
`resources/bm25-index.ts` and `project` of `resources/bm25-index-service.ts`.
-/

namespace Flair.Lexical

open Dynamic

/-- The attributes a query may filter on and still be served from the index. -/
def supportedScopeAttrs : List String := [
  "agentId", "visibility", "archived", "tags", "subject", "durability",
  "source", "sessionId", "promotionStatus", "parentId", "derivedFrom",
  "supersedes", "contentHash", "embeddingModel"]

def temporalAttrs : List String := ["createdAt", "expiresAt", "validFrom", "validTo"]

def indexSelect : List String := ["id", "content"] ++ supportedScopeAttrs ++ temporalAttrs

structure IndexRecord where
  id : String
  fields : Record
deriving DecidableEq

def project (record : Record) : Option IndexRecord :=
  match record.get "id" with
  | some (.str id) => some { id, fields := record.filter fun field _ => field ∈ indexSelect }
  | _ => none

theorem project_id {record : Record} {id : String} (named : record.get "id" = some (.str id))
    : project record
      = some { id, fields := record.filter fun field _ => field ∈ indexSelect } := by
  rw [project, named]

end Flair.Lexical
