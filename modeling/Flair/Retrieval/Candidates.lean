import Flair.Lexical.Bm25Index
import Flair.Retrieval.Presentation

/-! The retrieval of candidates over a store. Follows `retrieveCandidates` of
`resources/semantic-retrieval-core.ts`, where the lexical index declines and the lexical leg
scans the corpus, and `resolveReadScope` of `resources/memory-read-scope.ts`.
-/

namespace Flair.Retrieval

open Dynamic InsertionMap Flair.Lexical

/-- The fields of the default projection that the retrieval itself reads, and those it
shows.
-/
def defaultSelect : List String := [
  "id", "agentId", "content", "contentHash", "visibility", "instanceToken", "tags",
  "durability", "source", "createdAt", "updatedAt", "expiresAt", "retrievalCount",
  "usageCount", "lastRetrieved", "promotionStatus", "promotedAt", "promotedBy",
  "promotionContentHash", "archived", "archivedAt", "archivedBy", "parentId", "derivedFrom",
  "sessionId", "lastReflected", "supersedes", "subject", "summary", "validFrom", "validTo",
  "_safetyFlags"]

inductive RetrievalMode where
  | hybrid
  | vectorOnly
  | bm25Only
deriving DecidableEq

inductive Scoring where
  | raw
  | composite
deriving DecidableEq

-- The database

def Store (rows : List Record) : Prop := (rows.map rowId).Nodup

/-- A vector index: it answers from the rows that match its conditions, with a distance or
without one, and its answer depends on no other row and not on their order.
-/
structure VectorIndex (K : Type*) where
  nearest : (target : List K) → (rows : List Record) → (limit : Int) → List (Record × Option K)
  only : ∀ target rows limit, ∀ hit ∈ nearest target rows limit, hit.1 ∈ rows
  unordered : ∀ target limit {rows other : List Record}, Store rows → rows.Perm other
    → nearest target rows limit = nearest target other limit

/-- The query engine: what a condition means to it, its vector index, and the stamps of the
current embedding space.
-/
structure Database (K : Type*) where
  meets : Condition → Record → Bool
  vectors : VectorIndex K
  trustedForms : List String

/-- `Memory.get(id)` -/
def lookup (rows : List Record) (id : String) : Option Record :=
  rows.find? fun row => rowId row = id

namespace Database

variable {K : Type*} (db : Database K)

/-- `Memory.search({ conditions })` -/
def search (conditions : List Condition) (rows : List Record) : List Record :=
  rows.filter fun row => conditions.all fun condition => db.meets condition row

def trustedVectorCondition : Condition :=
  .group "or" (db.trustedForms.map fun form =>
    .leaf "embeddingModel" "equals" (some (.str form)))

def isTrustedVectorStamp (stamp : Option Value) : Bool :=
  match stamp with
  | some (.str form) => decide (form ∈ db.trustedForms)
  | _ => false

end Database

-- The query

/-- `isAllowed` of the read scope of an agent. -/
def scopeAllows (authAgentId : String) (record : Record) : Bool :=
  strictEquals (record.get "agentId") (some (.str authAgentId))
    || !strictEquals (record.get "visibility") (some (.str "private"))

/-- The parameters of a retrieval; `extraSelect` is what a caller adds to the projection,
and `reader` the agent of the read scope, when there is one.
-/
structure RetrievalParams (K : Type*) where
  queryEmbedding : Option (List K)
  q : String
  conditions : List Condition
  limit : Int
  extraSelect : List String
  includeSuperseded : Bool
  scoring : Scoring
  temporalBoost : K
  timeFilters : RecordTimeFilters
  minScore : K
  agentId : Option Value
  reader : Option String
  mode : RetrievalMode
  withSemSimilarity : Bool

section

variable {K : Type*} (params : RetrievalParams K)

def passesAllowed (record : Record) : Bool :=
  params.reader.all fun agent => scopeAllows agent record

def selected (row : Record) : Record :=
  row.filter fun field _ => field ∈ defaultSelect ++ params.extraSelect

def storedEmbedding (full : Option Record) : List Value :=
  match full.bind fun row => row.get "embedding" with
  | some (.arr items) => items
  | _ => []

end

section

variable {K : Type*} [Field K] [LinearOrder K] [FloorRing K]
variable (runtime : Runtime K) (db : Database K) (params : RetrievalParams K)

def keeps (record : Record) : Bool :=
  passesRecordFilters runtime.engine record params.timeFilters runtime.now
    && passesAllowed params record

/-- `q && content.toLowerCase().includes(q.toLowerCase())` -/
def keywordHit (record : Record) : Bool :=
  decide (params.q ≠ "")
    && decide ((runtime.lower params.q).toList
        <:+: (runtime.lower
          (if truthy (record.get "content") then runtime.engine.string (record.get "content")
            else "")).toList)

def keywordBump (record : Record) : K := if keywordHit runtime params record then 0.05 else 0

/-- A record as it is pushed: its score is the raw score or the composite of the ranking
value, boosted; it is ordered by a key or, without one, by its score.
-/
def pushed (record : Record) (rawScore ranking : K) (semSimilarity : Option K)
    (key : Option K) : RetrievalRankedRow K :=
  let base :=
    match params.scoring with
    | .raw => rawScore
    | .composite => runtime.composite ranking record
  let finalScore := if 1 < params.temporalBoost then base * params.temporalBoost else base
  { row := {
      record := shownRecord runtime params.agentId record
      score := roundScore finalScore
      rawScore :=
        match params.scoring with
        | .raw => none
        | .composite => some (roundScore rawScore)
      source := sourceOf params.agentId record
      semSimilarity := if params.withSemSimilarity then semSimilarity else none }
    rank := key.getD finalScore }

-- The legs

structure SemanticHit (K : Type*) where
  record : Record
  similarity : K

def semanticLeg (rows : List Record) (target : List K) : List (SemanticHit K) :=
  (db.vectors.nearest target
      (db.search (params.conditions ++ [db.trustedVectorCondition]) rows) params.limit).filterMap
    fun hit =>
      let record := selected params hit.1
      if keeps runtime params record then
        some {
          record
          similarity :=
            match hit.2 with
            | some distance => 1 - distance
            | none => runtime.cosine target (storedEmbedding (lookup rows (rowId record))) }
      else none

def corpus (rows : List Record) : List Record :=
  ((db.search params.conditions rows).map (selected params)).filter fun record =>
    isAllowedBm25Candidate runtime.engine record params.conditions params.timeFilters runtime.now
      && passesAllowed params record

/-- The lexical leg: the best fifty rows with a positive score. -/
def lexicalIds (records : List Record) : List String :=
  (((bm25Rank runtime.idf (records.map docOf) params.q).filter
    fun scored => 0 < scored.score).take 50).map BM25Scored.id

/-- `allowedById`: the corpus, and the semantic candidates that are not in it. -/
def allowedById (scanned : List Record) (hits : List (SemanticHit K))
    : InsertionMap String Record :=
  hits.foldl
    (fun held hit =>
      if (held.get (rowId hit.record)).isSome then held
      else held.set (rowId hit.record) hit.record)
    (scanned.foldl (fun held record => held.set (rowId record) record) [])

def semSimById (hits : List (SemanticHit K)) : InsertionMap String K :=
  hits.foldl (fun held hit => held.set (rowId hit.record) hit.similarity) []

-- The modes

def fusedSimilarity (rows : List Record) (hits : List (SemanticHit K)) (id : String)
    : Option K :=
  match (semSimById hits).get id, params.queryEmbedding with
  | some similarity, _ => some similarity
  | none, none => none
  | none, some target =>
    let full := lookup rows id
    if db.isTrustedVectorStamp (full.bind fun row => row.get "embeddingModel") then
      some (runtime.cosine target (storedEmbedding full))
    else none

def semanticHits (rows : List Record) : List (SemanticHit K) :=
  (params.queryEmbedding.map (semanticLeg runtime db params rows)).getD []

def scannedRows (rows : List Record) : List Record :=
  if params.q ≠ "" ∨ params.queryEmbedding = none then corpus runtime db params rows else []

def lexicalLeg (scanned : List Record) : List String :=
  if params.q ≠ "" then lexicalIds runtime params scanned else []

def hybrid (rows : List Record) : List (RetrievalRankedRow K) :=
  let hits := semanticHits runtime db params rows
  let scanned := scannedRows runtime db params rows
  let lexical := lexicalLeg runtime params scanned
  let allowed := allowedById scanned hits
  if params.q = "" ∧ params.queryEmbedding = none then
    allowed.map fun entry => pushed runtime params entry.2 0 0 none none
  else
    (fuseRrfNormalized (hits.map fun hit => rowId hit.record) lexical).filterMap fun fused =>
      (allowed.get fused.1).map fun record =>
        let similarity := fusedSimilarity runtime db params rows hits fused.1
        pushed runtime params record (similarity.getD 0 + keywordBump runtime params record)
          fused.2 similarity
          (match params.scoring with
            | .raw => some fused.2
            | .composite => none)

def bm25Only (rows : List Record) : List (RetrievalRankedRow K) :=
  let scanned := if params.q ≠ "" then corpus runtime db params rows else []
  let lexical := lexicalLeg runtime params scanned
  let allowed := allowedById scanned ([] : List (SemanticHit K))
  lexical.zipIdx.filterMap fun place =>
    (allowed.get place.1).map fun record =>
      let rawScore := keywordBump runtime params record
      pushed runtime params record rawScore rawScore none
        (some ((lexical.length : K) - (place.2 : K)))

def vectorOnly (rows : List Record) (target : List K) : List (RetrievalRankedRow K) :=
  (semanticLeg runtime db params rows target).map fun hit =>
    let rawScore := hit.similarity + keywordBump runtime params hit.record
    pushed runtime params hit.record rawScore rawScore (some hit.similarity) none

def keywordOnly (rows : List Record) : List (RetrievalRankedRow K) :=
  (((db.search params.conditions rows).filter (keeps runtime params)).filter
      fun row => params.q = "" || keywordHit runtime params row).map fun row =>
    let rawScore := keywordBump runtime params row
    pushed runtime params (row.delete "embedding") rawScore rawScore none none

-- Superseded rows, the minimum score and the order

def results (rows : List Record) : List (RetrievalRankedRow K) :=
  match params.mode, params.queryEmbedding with
  | .hybrid, _ => hybrid runtime db params rows
  | .bm25Only, _ => bm25Only runtime db params rows
  | .vectorOnly, some target => vectorOnly runtime db params rows target
  | .vectorOnly, none => keywordOnly runtime db params rows

def supersededIds (ranked : List (RetrievalRankedRow K)) : List Value :=
  ranked.filterMap fun entry =>
    if truthy (entry.row.record.get "supersedes") then entry.row.record.get "supersedes" else none

def filteredResults (ranked : List (RetrievalRankedRow K)) : List (RetrievalRankedRow K) :=
  let current :=
    if params.includeSuperseded then ranked
    else ranked.filter fun entry =>
      decide (Value.str (rowId entry.row.record) ∉ supersededIds ranked)
  if 0 < params.minScore then
    current.filter fun entry => decide (params.minScore ≤ entry.row.score)
  else current

def retrieveCandidates (rows : List Record) : List (RetrievedRow K) :=
  ((filteredResults params (results runtime db params rows)).insertionSort RankedBefore).map
    RetrievalRankedRow.row

end

end Flair.Retrieval
