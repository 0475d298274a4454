import Flair.Foundations.BinaryHeap
import Flair.Foundations.Text
import Flair.Lexical.Bm25
import Flair.Lexical.Bm25Filter
import Flair.Lexical.IndexRecords

/-! The incrementally maintained BM25 index: slots and postings, the aggregates of the
partitions and facets, the sweep of expired rows, and the ranking of a query. Follows
`resources/bm25-index.ts`.
-/

namespace Flair.Lexical

open Dynamic InsertionMap

-- Slots and keys

def indexMetaAttrs : List String := supportedScopeAttrs ++ temporalAttrs

/-- A document in the index; an expiry that is `none` is `Infinity`. -/
structure Slot where
  id : String
  dl : Nat
  nTerms : Nat
  stored : Record
  pkey : String
  expiry : Option Int

/-- `{count, sumDl}` -/
abbrev Agg := Int × Int

section

variable (engine : Engine)

def keyPart (value : Option Value) : String :=
  if isNullish value then "\x01" else engine.string value

def partitionKeyOf (stored : Record) : String :=
  keyPart engine (stored.get "agentId") ++ "\x00" ++ keyPart engine (stored.get "visibility")
    ++ "\x00" ++ (if stored.get "archived" = some (.bool true) then "1" else "0")

def facetKey (attr value : String) : String := attr ++ "\x00" ++ value

def facetKeysOf (stored : Record) : List String :=
  (match stored.get "tags" with
    | some (.arr tags) => tags.map fun tag => facetKey "tags" (engine.string (some tag))
    | _ => [])
  ++ (if isNullish (stored.get "subject") then []
      else [facetKey "subject" (engine.string (stored.get "subject"))])

def boundOf (bound : Option Value) : Option Int :=
  if truthy bound then engine.dateParse bound else none

/-- `Math.min` of two instants. -/
def earlier : Option Int → Option Int → Option Int
  | some a, some b => some (min a b)
  | some a, none => some a
  | none, other => other

def expiryOf (stored : Record) : Option Int :=
  earlier (boundOf engine (stored.get "expiresAt")) (boundOf engine (stored.get "validTo"))

def storedFields (record : IndexRecord) : Record :=
  (record.fields.filter fun field _ => field ∈ indexMetaAttrs).set "id" (.str record.id)

def recordText (record : IndexRecord) : String := contentText (record.fields.get "content")

def recordTokens (record : IndexRecord) : List String := tokenize (recordText record)

def slotFor (record : IndexRecord) : Slot where
  id := record.id
  dl := (recordTokens record).length
  nTerms := (termFrequencies (recordTokens record)).length
  stored := storedFields record
  pkey := partitionKeyOf engine (storedFields record)
  expiry := expiryOf engine (storedFields record)

end

/-- `expiry <= instant` -/
def expiresBy (expiry : Option Int) (instant : Int) : Bool :=
  expiry.any fun bound => decide (bound ≤ instant)

-- The structure

structure Bm25Index where
  slots : Nat → Option Slot
  slotCount : Nat
  slotOf : InsertionMap String Nat
  freeSlots : List Nat
  postings : InsertionMap String (List (Nat × Nat))
  totalPostings : Nat
  deadPostings : Nat
  partitions : InsertionMap String Agg
  facets : InsertionMap String (InsertionMap String Agg)
  partitionRep : InsertionMap String Record
  expiryHeap : BinaryHeap (Int × Nat)
  sweptTo : Int
  retired : Finset Nat
  cachedBodies : InsertionMap String String
  cachedBodyChars : Nat

namespace Bm25Index

def empty : Bm25Index where
  slots := fun _ => none
  slotCount := 0
  slotOf := []
  freeSlots := []
  postings := []
  totalPostings := 0
  deadPostings := 0
  partitions := []
  facets := []
  partitionRep := []
  expiryHeap := .empty
  sweptTo := 0
  retired := ∅
  cachedBodies := []
  cachedBodyChars := 0

def maxCachedBodies : Nat := 1024

def maxCachedBodyChars : Nat := 512 * 1024

def forgetBody (index : Bm25Index) (id : String) : Bm25Index :=
  match index.cachedBodies.get id with
  | none => index
  | some content => {
      index with
      cachedBodies := index.cachedBodies.delete id
      cachedBodyChars := index.cachedBodyChars - codeUnitCount content }

/-- Forget the oldest bodies until there is room for one with this many characters. -/
def evict (chars : Nat) : InsertionMap String String → Nat → InsertionMap String String × Nat
  | [], held => ([], held)
  | (id, body) :: rest, held =>
    if maxCachedBodies ≤ rest.length + 1 ∨ maxCachedBodyChars < held + chars then
      evict chars rest (held - codeUnitCount body)
    else ((id, body) :: rest, held)

def rememberBody (index : Bm25Index) (id content : String) : Bm25Index :=
  let forgotten := index.forgetBody id
  if maxCachedBodyChars < codeUnitCount content then forgotten
  else
    let room := evict (codeUnitCount content) forgotten.cachedBodies forgotten.cachedBodyChars
    { forgotten with
      cachedBodies := room.1.set id content
      cachedBodyChars := room.2 + codeUnitCount content }

-- Aggregates

section

variable (engine : Engine)

/-- The representative a partition's conditions are judged on. -/
def repOf (stored : Record) : Record :=
  (stored.filter fun field _ => field ∈ ["agentId", "visibility", "archived"]).set "id" (.str "")

def addToAggregates (index : Bm25Index) (entry : Slot) : Bm25Index := {
  index with
  partitions := bump index.partitions entry.pkey (1, entry.dl)
  partitionRep :=
    if (index.partitionRep.get entry.pkey).isSome then index.partitionRep
    else index.partitionRep.set entry.pkey (repOf entry.stored)
  facets := (facetKeysOf engine entry.stored).foldl
    (fun facets key => bumpIn facets key entry.pkey (1, (entry.dl : Int))) index.facets }

def removeFromAggregates (index : Bm25Index) (entry : Slot) : Bm25Index := {
  index with
  partitions := bump index.partitions entry.pkey (-1, -entry.dl)
  facets := (facetKeysOf engine entry.stored).foldl
    (fun facets key =>
      match facets.get key with
      | none => facets
      | some held => facets.set key (bump held entry.pkey (-1, -(entry.dl : Int))))
    index.facets }

-- Maintenance

def compact (index : Bm25Index) : Bm25Index :=
  let kept := filterLists (fun posting => (index.slots posting.1).isSome) index.postings
  { index with
    postings := kept
    totalPostings := (kept.map fun entry => entry.2.length).sum
    deadPostings := 0
    freeSlots :=
      ((List.range index.slotCount).filter fun slot => (index.slots slot).isNone).reverse }

/-- `maybeCompact`: when more than a quarter of the postings are dead. -/
def maybeCompact (index : Bm25Index) : Bm25Index :=
  if index.deadPostings * 4 ≤ index.totalPostings ∨ index.totalPostings = 0 then index
  else index.compact

def remove (index : Bm25Index) (id : String) : Bm25Index :=
  match index.slotOf.get id with
  | none => index
  | some slot =>
    let cleared := (({ index with slotOf := index.slotOf.delete id }).forgetBody id)
    let emptied := { cleared with slots := Function.update cleared.slots slot none }
    let counted :=
      match index.slots slot with
      | none => emptied
      | some entry =>
        let released :=
          if slot ∈ emptied.retired then
            { emptied with retired := emptied.retired.erase slot }
          else emptied.removeFromAggregates engine entry
        { released with deadPostings := released.deadPostings + entry.nTerms }
    counted.maybeCompact

/-- The slot a new document takes: the last freed one, or a new one. -/
def nextSlot (index : Bm25Index) : Nat := index.freeSlots.head?.getD index.slotCount

def pushPostings (postings : InsertionMap String (List (Nat × Nat))) (slot : Nat)
    (tf : InsertionMap String Nat) : InsertionMap String (List (Nat × Nat)) :=
  tf.foldl
    (fun postings entry =>
      modify entry.1 (fun list => list.getD [] ++ [(slot, entry.2)]) postings)
    postings

def place (index : Bm25Index) (record : IndexRecord) : Bm25Index :=
  let slot := index.nextSlot
  let tf := termFrequencies (recordTokens record)
  let placed := ({
    index with
    slots := Function.update index.slots slot (some (slotFor engine record))
    slotCount := max index.slotCount (slot + 1)
    freeSlots := index.freeSlots.tail
    slotOf := index.slotOf.set record.id slot }).rememberBody record.id (recordText record)
  { placed with
    postings := pushPostings placed.postings slot tf
    totalPostings := placed.totalPostings + tf.length }

/-- A document whose bound has already passed is born retired. -/
def enter (index : Bm25Index) (record : IndexRecord) : Bm25Index :=
  let slot := index.nextSlot
  let entry := slotFor engine record
  let placed := index.place engine record
  if expiresBy entry.expiry placed.sweptTo then
    { placed with retired := insert slot placed.retired }
  else
    let counted := placed.addToAggregates engine entry
    match entry.expiry with
    | none => counted
    | some expiry =>
      { counted with expiryHeap := counted.expiryHeap.push Prod.fst (expiry, slot) }

def sameIndexValue (left right : Option Value) : Bool :=
  match left, right with
  | some (.arr xs), some (.arr ys) =>
    decide (xs.length = ys.length)
    && (xs.zip ys).all fun (x, y) => !isReference (some x) && decide (x = y)
  | _, _ => strictEquals left right

def unchanged (index : Bm25Index) (record : IndexRecord) : Bool :=
  match (index.slotOf.get record.id).bind index.slots with
  | none => false
  | some previous =>
    decide (index.cachedBodies.get record.id = some (recordText record))
    && indexMetaAttrs.all fun attr =>
        decide (previous.stored.has attr = record.fields.has attr)
        && sameIndexValue (previous.stored.get attr) (record.fields.get attr)

def upsert (index : Bm25Index) (record : IndexRecord) : Bm25Index :=
  if record.id = "" then index
  else if index.unchanged record then index.rememberBody record.id (recordText record)
  else (index.remove engine record.id).enter engine record

-- The sweep

/-- Retire what the top of the heap names, unless the heap's entry is stale. -/
def retire (index : Bm25Index) (top : Int × Nat) : Bm25Index :=
  match index.slots top.2 with
  | none => index
  | some entry =>
    if entry.expiry ≠ some top.1 ∨ top.2 ∈ index.retired then index
    else { index with retired := insert top.2 index.retired }.removeFromAggregates engine entry

def sweepLoop (now : Int) : (steps : Nat) → Bm25Index → Bm25Index
  | 0, index => index
  | steps + 1, index =>
    if 0 < index.expiryHeap.size ∧ (index.expiryHeap.item 0).1 < now then
      sweepLoop now steps
        ({ index with expiryHeap := index.expiryHeap.pop Prod.fst }.retire engine
          (index.expiryHeap.item 0))
    else index

def sweep (index : Bm25Index) (now : Int) : Bm25Index :=
  if now ≤ index.sweptTo then index
  else ({ index with sweptTo := now }).sweepLoop engine now index.expiryHeap.size

end

end Bm25Index

-- Planning

mutual
def knownShape : Condition → Bool
  | .leaf _ comparator _ => comparator == "equals" || comparator == "not_equal"
  | .group operator conditions =>
    (operator == "or" || operator == "and") && knownShapes conditions

def knownShapes : List Condition → Bool
  | [] => true
  | condition :: rest => knownShape condition && knownShapes rest
end

def equalsLeaf : Condition → Option (String × Option Value)
  | .leaf attr comparator value => if comparator = "equals" then some (attr, value) else none
  | .group _ _ => none

def asFacet (engine : Engine) : Condition → Option (String × List String)
  | .leaf attr comparator value =>
    (equalsLeaf (.leaf attr comparator value)).map fun _ => (attr, [engine.string value])
  | .group operator conditions =>
    if operator ≠ "or" then none
    else
      match conditions.mapM equalsLeaf with
      | some ((attr, value) :: rest) =>
        if attr ≠ "" ∧ rest.all (fun leaf => leaf.1 = attr) then
          some (attr, ((attr, value) :: rest).map fun leaf => engine.string leaf.2)
        else none
      | _ => none

def partitionAttrs : List String := ["agentId", "visibility", "archived"]

def facetAttrs : List String := ["tags", "subject"]

structure QueryPlan where
  partitionConditions : List Condition
  facet : Option (String × List String)
  exact : Bool

def planStep (engine : Engine) (plan : QueryPlan) (condition : Condition) : QueryPlan :=
  if (attributes condition).all (fun attr => attr ∈ partitionAttrs) then
    { plan with partitionConditions := plan.partitionConditions ++ [condition] }
  else
    match asFacet engine condition, plan.facet with
    | some (attr, values), none =>
      if attr ∈ facetAttrs then { plan with facet := some (attr, values) }
      else {
        plan with
        partitionConditions := plan.partitionConditions ++ [condition]
        exact := true }
    | _, _ => {
        plan with
        partitionConditions := plan.partitionConditions ++ [condition]
        exact := true }

/-- The caller's predicate and its promise to read only the agent and the visibility. -/
structure ScopePredicate where
  test : Record → Bool
  scopableOnly : Bool

structure RankParams where
  q : String
  conditions : List Condition
  timeFilters : RecordTimeFilters
  isAllowed : Option ScopePredicate
  limit : Int
  now : Int

namespace RankParams

variable (params : RankParams)

def allows (record : Record) : Bool := params.isAllowed.all fun scope => scope.test record

def temporallyFiltered : Bool :=
  params.timeFilters.sinceDate.isSome || params.timeFilters.asOf.any fun asOf => asOf ≠ ""

/-- `planQuery`: nothing when the index must not serve the query. -/
def plan (engine : Engine) : Option QueryPlan :=
  if knownShapes params.conditions
      && (attributesOf params.conditions).all fun attr => attr ∈ supportedScopeAttrs then
    some (params.conditions.foldl (planStep engine) {
      partitionConditions := []
      facet := none
      exact := params.temporallyFiltered
        || params.isAllowed.any fun scope => !scope.scopableOnly })
  else none

def inScope (engine : Engine) (record : Record) : Bool :=
  isAllowedBm25Candidate engine record params.conditions params.timeFilters params.now
    && params.allows record

end RankParams

-- Ranking

/-- `list.slice(0, limit)` -/
def sliceTo {α : Type*} (limit : Int) (list : List α) : List α :=
  if 0 ≤ limit then list.take limit.toNat else list.take (list.length - (-limit).toNat)

namespace Bm25Index

variable (engine : Engine) (index : Bm25Index) (params : RankParams)

def mergeFacetAggregates (attr : String) (values : List String) : InsertionMap String Agg :=
  match values with
  | [value] => tallyOf index.facets (facetKey attr value)
  | _ =>
    values.foldl
      (fun merged value =>
        (tallyOf index.facets (facetKey attr value)).foldl
          (fun merged entry => bump merged entry.1 entry.2) merged)
      []

def check (slot : Nat) : Bool :=
  (index.slots slot).any fun entry => params.inScope engine entry.stored

def judged (plan : QueryPlan) (pkey : String) : Bool :=
  (index.partitionRep.get pkey).any fun rep =>
    matchesConditions plan.partitionConditions rep && params.allows rep

def stats (plan : QueryPlan) : Agg :=
  if plan.exact then
    (List.range index.slotCount).foldl
      (fun sums slot =>
        match index.slots slot with
        | none => sums
        | some entry =>
          if params.inScope engine entry.stored then sums + (1, (entry.dl : Int)) else sums)
      (0, 0)
  else
    let source :=
      match plan.facet with
      | some (attr, values) => index.mergeFacetAggregates attr values
      | none => index.partitions
    source.foldl
      (fun sums entry =>
        if entry.2.1 = 0 then sums
        else if index.judged params plan entry.1 then sums + entry.2
        else sums)
      (0, 0)

def postingsOf (term : String) : List (Nat × Nat) := (index.postings.get term).getD []

/-- How many of the query's documents hold a term. -/
def df (term : String) : Nat :=
  ((index.postingsOf term).filter fun posting => index.check engine params posting.1).length

variable {K : Type*} [Field K] [LinearOrder K] (idf : Int → Nat → K)

def scoreTerm (sums : Agg) (scores : InsertionMap Nat K) (term : String)
    : InsertionMap Nat K :=
  (index.postingsOf term).foldl
    (fun scores posting =>
      match index.slots posting.1 with
      | none => scores
      | some entry =>
        if index.check engine params posting.1 then
          bump scores posting.1
            (termScore (idf sums.1 (index.df engine params term)) posting.2 entry.dl
              (orOne ((sums.2 : K) / orOne (sums.1 : K))))
        else scores)
    scores

/-- `rank` after the sweep. -/
def rankSwept (plan : QueryPlan) : List String :=
  let qToks := (tokenize params.q).eraseDups
  let sums := index.stats engine params plan
  let scores := qToks.foldl (index.scoreTerm engine params idf sums) []
  let out := (scores.filter fun entry => 0 < entry.2).filterMap fun entry =>
    (index.slots entry.1).map fun slot => ({ id := slot.id, score := entry.2 } : BM25Scored K)
  (sliceTo params.limit (out.insertionSort RanksBefore)).map BM25Scored.id

/-- `rank`: the ids, or nothing when the index declines; the sweep stays behind. -/
def rank : Option (List String) × Bm25Index :=
  match params.plan engine with
  | none => (none, index)
  | some plan =>
    let swept := index.sweep engine params.now
    (some (swept.rankSwept engine params idf plan), swept)

end Bm25Index

-- The scan

def docOf (row : Record) : BM25Doc where
  id := (asString (row.get "id")).getD ""
  content := row.get "content"

end Flair.Lexical
