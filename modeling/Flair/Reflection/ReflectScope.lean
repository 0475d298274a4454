import Mathlib.Data.List.Sort
import Mathlib.Data.Rat.Floor
import Flair.Foundations.Text
import Flair.Foundations.Values

/-! Which memories one reflection run hands to the model: the owner, archive, durability,
expiry and scope rules of the gather loop, and the oldest-unreflected cap on what it keeps.
-/

namespace Flair.Reflection

open Dynamic

-- Scope of one row

def CONTINUITY_SCOPE_TAG_PREFIX : String := "adk:continuity:"

def isContinuityScopeTag : Option Value → Bool
  | some (.str tag) =>
    codeUnitCount CONTINUITY_SCOPE_TAG_PREFIX < codeUnitCount tag
      && tag.toList.take CONTINUITY_SCOPE_TAG_PREFIX.length
          == CONTINUITY_SCOPE_TAG_PREFIX.toList
  | _ => false

/-- The selected fields of a `Memory` row that the gather loop reads. -/
structure ReflectMemory where
  id : String
  agentId : String
  archived : Option Bool
  durability : Option String
  expiresAt : Option String
  tags : Option (List Value)
  createdAt : Option String
  lastReflected : Option String
  content : Option String
deriving DecidableEq, Inhabited

namespace ReflectMemory

/-- `(record.tags ?? []).includes(tag)` -/
def carries (record : ReflectMemory) (tag : Option Value) : Bool :=
  (record.tags.getD []).any fun held => strictEquals (some held) tag

def isJournal (record : ReflectMemory) : Bool :=
  record.durability == some "ephemeral"
    && (record.tags.getD []).any fun held => isContinuityScopeTag (some held)

end ReflectMemory

/-- What the gather loop uses of the host: `new Date(value).getTime()`, with `none` for an
invalid date, and `localeCompare`.
-/
structure Host where
  dateOf : Value → Option Int
  localeCompare : String → String → Int

/-- `new Date(text) >= bound`; a comparison with an invalid date is false. -/
def Host.notBefore (host : Host) (text : String) : Option Int → Bool
  | some bound => (host.dateOf (.str text)).any fun time => bound ≤ time
  | none => false

structure ScopeParams where
  scope : Value
  tag : Option Value
  sinceDate : Option Int

def ScopeParams.isTagged (params : ScopeParams) : Bool := params.scope == .str "tagged"

def memoryMatchesReflectScope (host : Host) (record : ReflectMemory) (params : ScopeParams)
    : Bool :=
  if params.isTagged && isContinuityScopeTag params.tag then
    record.durability == some "ephemeral" && record.carries params.tag
  else if record.isJournal then false
  else if params.isTagged then
    if truthy params.tag then record.carries params.tag else false
  else if params.scope == .str "recent" then
    match record.createdAt with
    | none | some "" => false
    | some createdAt => host.notBefore createdAt params.sinceDate
  else true

-- The cap

def DEFAULT_MAX_MEMORIES_PER_RUN : Int := 50

def ABSOLUTE_MAX_MEMORIES_PER_RUN : Int := 200

/-- The override and the environment's setting arrive as the finite numbers they read as. -/
def resolveMaxMemoriesPerRun (override fromEnv : Option Rat) : Int :=
  let resolved :=
    match override.filter (0 < ·), fromEnv.filter (0 < ·) with
    | some amount, _ => amount.floor
    | none, some amount => amount.floor
    | none, none => DEFAULT_MAX_MEMORIES_PER_RUN
  min resolved ABSOLUTE_MAX_MEMORIES_PER_RUN

def isUnreflectedMemory (record : ReflectMemory) : Bool :=
  record.lastReflected.getD "" == ""

/-- Oldest `createdAt` first; a missing one sorts last. -/
def compareOldestCreatedAtFirst (host : Host) (a b : ReflectMemory) : Int :=
  let ac := a.createdAt.getD ""
  let bc := b.createdAt.getD ""
  if ac = "" && bc = "" then 0
  else if ac = "" then 1
  else if bc = "" then -1
  else host.localeCompare ac bc

def compareOldestUnreflectedFirst (host : Host) (a b : ReflectMemory) : Int :=
  let aU : Int := if isUnreflectedMemory a then 0 else 1
  let bU : Int := if isUnreflectedMemory b then 0 else 1
  if aU ≠ bU then aU - bU else compareOldestCreatedAtFirst host a b

/-- `pool.sort(compareOldestUnreflectedFirst)`: a stable sort. -/
def sortOldestUnreflectedFirst (host : Host) (pool : List ReflectMemory)
    : List ReflectMemory :=
  pool.insertionSort fun a b => compareOldestUnreflectedFirst host a b ≤ 0

def considerForOldestUnreflectedCap (host : Host) (pool : List ReflectMemory)
    (record : ReflectMemory) (maxN : Int)
    : List ReflectMemory :=
  if maxN ≤ 0 then pool
  else if (pool.length : Int) < maxN then
    sortOldestUnreflectedFirst host (pool ++ [record])
  else
    match pool.getLast? with
    | none => pool
    | some worstKept =>
      if compareOldestUnreflectedFirst host record worstKept < 0 then
        sortOldestUnreflectedFirst host (pool.dropLast ++ [record])
      else pool

variable {host : Host} {record : ReflectMemory}

theorem mem_considerForOldestUnreflectedCap {pool : List ReflectMemory} {kept : ReflectMemory}
    {maxN : Int} (member : kept ∈ considerForOldestUnreflectedCap host pool record maxN)
    : kept ∈ pool ∨ kept = record := by
  unfold considerForOldestUnreflectedCap at member
  split at member
  · exact .inl member
  split at member
  · simpa [sortOldestUnreflectedFirst] using member
  split at member
  · exact .inl member
  split at member
  · have h : kept ∈ pool.dropLast ∨ kept = record := by
      simpa [sortOldestUnreflectedFirst] using member
    exact h.imp_left fun within => (List.dropLast_sublist pool).subset within
  · exact .inl member

-- The gather loop

/-- One row of the table scan. `pauseSeen` is set where the loop had used up its time slice
at this row and found the operator's pause.
-/
structure ScannedRow where
  record : ReflectMemory
  pauseSeen : Bool

structure GatherQuery where
  agentId : Option String
  params : ScopeParams
  gatherNow : Int
  maxN : Int

/-- The lines of the loop body before `considerForOldestUnreflectedCap`: a row none of them
skips.
-/
def isEligible (host : Host) (query : GatherQuery) (record : ReflectMemory) : Bool :=
  if some record.agentId != query.agentId then false
  else if record.archived == some true then false
  else if record.durability == some "permanent" then false
  else if (record.expiresAt.filter (· != "")).any fun expiresAt =>
      (host.dateOf (.str expiresAt)).any (· ≤ query.gatherNow) then false
  else memoryMatchesReflectScope host record query.params

/-- The loop from one kept set on; `none` when a pause aborted it. -/
def gatherFrom (host : Host) (query : GatherQuery)
    : List ReflectMemory → List ScannedRow → Option (List ReflectMemory)
  | memories, [] => some memories
  | memories, row :: rest =>
    if row.pauseSeen then none
    else if isEligible host query row.record then
      gatherFrom host query
        (considerForOldestUnreflectedCap host memories row.record query.maxN) rest
    else gatherFrom host query memories rest

def gather (host : Host) (query : GatherQuery) (scan : List ScannedRow) (pausedAfter : Bool)
    : Option (List ReflectMemory) :=
  match gatherFrom host query [] scan with
  | none => none
  | some memories => if pausedAfter then none else some memories

variable {query : GatherQuery}

theorem mem_gatherFrom {scan : List ScannedRow} {before gathered : List ReflectMemory}
    {memory : ReflectMemory} (run : gatherFrom host query before scan = some gathered)
    (member : memory ∈ gathered)
    : memory ∈ before
      ∨ memory ∈ scan.map ScannedRow.record ∧ isEligible host query memory = true := by
  induction scan generalizing before with
  | nil =>
    cases run
    exact .inl member
  | cons row rest ih =>
    simp only [gatherFrom] at run
    split at run
    · contradiction
    split at run
    case isTrue eligible =>
      rcases ih run with kept | ⟨scanned, fit⟩
      · rcases mem_considerForOldestUnreflectedCap kept with kept | rfl
        · exact .inl kept
        · exact .inr ⟨by simp, eligible⟩
      · exact .inr ⟨List.mem_cons_of_mem _ scanned, fit⟩
    case isFalse =>
      rcases ih run with kept | ⟨scanned, fit⟩
      · exact .inl kept
      · exact .inr ⟨List.mem_cons_of_mem _ scanned, fit⟩

theorem mem_gather {scan : List ScannedRow} {pausedAfter : Bool} {gathered : List ReflectMemory}
    {memory : ReflectMemory} (run : gather host query scan pausedAfter = some gathered)
    (member : memory ∈ gathered)
    : memory ∈ scan.map ScannedRow.record ∧ isEligible host query memory = true := by
  unfold gather at run
  split at run
  · contradiction
  case h_2 memories loop =>
    split at run
    · contradiction
    cases run
    rcases mem_gatherFrom loop member with kept | found
    · exact absurd kept List.not_mem_nil
    · exact found

-- What eligibility implies

def ScopedToSession (params : ScopeParams) (session : Value) : Prop :=
  params.isTagged = true ∧ params.tag = some session
    ∧ isContinuityScopeTag (some session) = true

theorem isEligible_facts (eligible : isEligible host query record = true)
    : some record.agentId = query.agentId ∧ record.archived ≠ some true
      ∧ record.durability ≠ some "permanent"
      ∧ memoryMatchesReflectScope host record query.params = true := by
  unfold isEligible at eligible
  split at eligible
  · contradiction
  split at eligible
  · contradiction
  split at eligible
  · contradiction
  split at eligible
  · contradiction
  case isFalse.isFalse.isFalse.isFalse owner archive durability _ =>
    exact ⟨by simpa using owner, by simpa using archive, by simpa using durability, eligible⟩

theorem mem_tags_of_carries {tag : Option Value} (carries : record.carries tag = true)
    : ∃ held ∈ record.tags.getD [], tag = some held := by
  obtain ⟨held, member, same⟩ := List.any_eq_true.mp carries
  exact ⟨held, member, (eq_of_strictEquals same).symm⟩

theorem carries_of_tagged {params : ScopeParams}
    (inScope : memoryMatchesReflectScope host record params = true)
    (tagged : params.isTagged = true)
    : ∃ held ∈ record.tags.getD [], params.tag = some held := by
  unfold memoryMatchesReflectScope at inScope
  split at inScope
  · rw [Bool.and_eq_true] at inScope
    exact mem_tags_of_carries inScope.2
  split at inScope
  · contradiction
  split at inScope
  · exact mem_tags_of_carries inScope
  · contradiction

theorem session_of_journal {params : ScopeParams}
    (inScope : memoryMatchesReflectScope host record params = true)
    (journal : record.isJournal = true)
    : ∃ session ∈ record.tags.getD [], ScopedToSession params session := by
  by_cases continuity : (params.isTagged && isContinuityScopeTag params.tag) = true
  · rw [Bool.and_eq_true] at continuity
    obtain ⟨held, member, named⟩ := carries_of_tagged inScope continuity.1
    exact ⟨held, member, continuity.1, named, by rw [← named]; exact continuity.2⟩
  · simp [memoryMatchesReflectScope, continuity, journal] at inScope

end Flair.Reflection
