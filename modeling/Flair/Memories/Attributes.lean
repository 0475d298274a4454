import Flair.Foundations.Objects

/-! The attributes a Memory row may carry and the fields a receiver strips from an inbound
one. Follows `resources/memory-declared-attributes.ts`, `src/lib/memory-attributes.ts`,
`resources/memory-embedding-value.ts`, `resources/skill-write.ts`,
`resources/seed-reservation.ts` and `src/lib/memory-id-policy.ts`.
-/

namespace Flair.Memories

open Dynamic

/-- `DECLARED_MEMORY_ATTRIBUTES`, in schema order. -/
def declaredMemoryAttributes : List String :=
  ["id", "agentId", "content", "contentHash", "trigger", "visibility", "embedding",
    "embeddingModel", "embeddedContentHash", "tags", "durability", "source", "type",
    "createdAt", "updatedAt", "instanceToken", "expiresAt", "retrievalCount",
    "lastRetrieved", "usageCount", "writeBackWriteId", "promotionStatus", "promotedAt",
    "promotedBy", "promotionContentHash", "archived", "archivedAt", "archivedBy",
    "parentId", "derivedFrom", "sessionId", "lastReflected", "supersedes", "subject",
    "summary", "validFrom", "validTo", "_safetyFlags", "provenance",
    "originatorInstanceId", "metadata", "entities", "skillSubjectId"]

def undeclaredAllowed : List String :=
  ["meta", "kind", "_originatorInstanceId", "_syncedFrom", "_syncedAt"]

def memoryAttributes : List String := declaredMemoryAttributes ++ undeclaredAllowed

/-- `stripInboundMemoryRow`: drop every attribute that is not on the whitelist. -/
def stripInboundMemoryRow (row : Record) : Record :=
  row.filter (fun field _ => decide (field ∈ memoryAttributes))

def serverStampedMemoryFields : List String :=
  ["writeBackWriteId", "instanceToken", "provenance", "skillSubjectId"]

def stripServerStampedFields (row : Record) : Record :=
  row.filter (fun field _ => decide (field ∉ serverStampedMemoryFields))

def isSkillWrite (row : Record) : Bool :=
  match row.get "tags" with
  | some (.arr tags) => decide (.str "skill" ∈ tags)
  | _ => false

def isEmptyEmbedding (value : Option Value) : Bool := decide (value = some (.arr []))

/-- `normalizeEmptyEmbedding`: an empty vector is stored as no vector. -/
def normalizeEmptyEmbedding (row : Record) : Record :=
  if isEmptyEmbedding (row.get "embedding") then row.set "embedding" .null else row

/-- `SEED_SKILL_ROW_ID`: the one id `RESERVED_SEED_IDS` reserves, on the Memory table. -/
def seedSkillRowId : String := "skill:using-flair"

def endsWithContentSelectorSuffix (id : Option Value) : Bool :=
  match id with
  | some (.str text) => ".content".toList.isSuffixOf text.toList
  | _ => false

@[simp] theorem get_stripInboundMemoryRow (row : Record) (field : String)
    : (stripInboundMemoryRow row).get field
      = if field ∈ memoryAttributes then row.get field else none := by
  by_cases kept : field ∈ memoryAttributes
  · cases found : row.get field <;>
      simp [stripInboundMemoryRow, found, kept, Option.filter]
  · cases found : row.get field <;>
      simp [stripInboundMemoryRow, found, kept, Option.filter]

@[simp] theorem get_stripServerStampedFields (row : Record) (field : String)
    : (stripServerStampedFields row).get field
      = if field ∈ serverStampedMemoryFields then none else row.get field := by
  by_cases stamped : field ∈ serverStampedMemoryFields
  · cases found : row.get field <;>
      simp [stripServerStampedFields, found, stamped, Option.filter]
  · cases found : row.get field <;>
      simp [stripServerStampedFields, found, stamped, Option.filter]

theorem get_normalizeEmptyEmbedding (row : Record) (field : String)
    : (normalizeEmptyEmbedding row).get field
      = if field = "embedding" ∧ isEmptyEmbedding (row.get "embedding") = true
        then some .null
        else row.get field := by
  unfold normalizeEmptyEmbedding
  by_cases empty : isEmptyEmbedding (row.get "embedding") = true
  · by_cases same : field = "embedding" <;> simp [empty, same]
  · simp [empty]

end Flair.Memories
