import Flair.Foundations.InsertionMap
import Flair.Foundations.Values
import Mathlib.Data.List.Perm.Subperm

/-! The integrity scan of the memory table against a checkpoint of it, and the pruning of the
deletion history the scan reads. Follows `src/lib/memory-integrity.ts` and the retention plan
of `src/commands/integrity.ts`.
-/

namespace Flair.Integrity

open Dynamic

inductive Tier where
  | permanent | persistent | standard | ephemeral
deriving DecidableEq

def Tier.durable : Tier → Bool
  | permanent | persistent => true
  | standard | ephemeral => false

def normalizeTier : Option String → Tier
  | some "permanent" => .permanent
  | some "persistent" => .persistent
  | some "ephemeral" => .ephemeral
  | _ => .standard

structure MemoryRow where
  id : String
  durability : Option String
  instanceToken : Option String

def MemoryRow.tier (row : MemoryRow) : Tier := normalizeTier row.durability

def naming (token : Option String) : Option String := token.filter (· ≠ "")

theorem naming_some {text : String} (h : text ≠ "") : naming (some text) = some text :=
  if_pos (by simpa using h)

structure Deletion where
  id : String
  memoryId : String
  memoryInstanceToken : Option String
  moment : String

structure Checkpoint where
  scannedAt : String
  watermark : Option String
  byDurability : Tier → Nat
  ids : InsertionMap String Tier
  instanceTokens : InsertionMap String (Option String)
  historyIds : List String

def tallyByDurability (rows : List MemoryRow) (tier : Tier) : Nat :=
  rows.countP fun row => row.tier = tier

-- Checkpoints

def Checkpoint.token (checkpoint : Checkpoint) (id : String) : Option String :=
  (checkpoint.instanceTokens.get id).bind naming

def Checkpoint.attests (checkpoint : Checkpoint) (record : Deletion) : Bool :=
  (checkpoint.token record.memoryId).isSome
    && decide (record.memoryInstanceToken = checkpoint.token record.memoryId)

def Checkpoint.needs (checkpoint : Checkpoint) (record : Deletion) : Bool :=
  (checkpoint.ids.get record.memoryId).any Tier.durable && checkpoint.attests record

def pulledBack (skips : Deletion → Bool) (watermark : String) (record : Deletion) : String :=
  if skips record then watermark
  else if record.moment ≠ "" ∧ textLt record.moment watermark then record.moment
  else watermark

def emptyCheckpoint (scannedAt : String) (rows : List MemoryRow) (deletions : List Deletion)
    (seenHistoryIds : List String)
    : Checkpoint :=
  let bare : Checkpoint := {
    scannedAt
    watermark := some scannedAt
    byDurability := tallyByDurability rows
    ids := rows.foldl (fun ids row => ids.set row.id row.tier) []
    instanceTokens :=
      rows.foldl (fun tokens row => tokens.set row.id (naming row.instanceToken)) []
    historyIds := [] }
  let historyIds :=
    (deletions.filter fun record => seenHistoryIds.contains record.id && bare.needs record).map
      Deletion.id
  let watermark := deletions.foldl
    (pulledBack fun record => historyIds.contains record.id || !bare.needs record) scannedAt
  { bare with watermark := some watermark, historyIds }

-- The scan

def currentRow (rows : List MemoryRow) (id : String) : Option MemoryRow :=
  rows.reverse.find? (·.id = id)

def deletionOf (checkpoint : Checkpoint) (deletions : List Deletion) (id : String)
    : Option Deletion :=
  (deletions.filter fun record => !checkpoint.historyIds.contains record.id
      && checkpoint.attests record && decide (record.memoryId = id)).foldl
    (fun latest record =>
      match latest with
      | none => some record
      | some earlier => if textLt earlier.moment record.moment then some record else some earlier)
    none

structure AttributedDeletion where
  id : String
  tier : Tier
  moment : String

structure TierChange where
  id : String
  source : Tier
  target : Tier

structure UnexplainedLoss where
  id : String
  tier : Tier
  replaced : Bool

def replaced (checkpoint : Checkpoint) (rows : List MemoryRow) (id : String) : Bool :=
  (currentRow rows id).any fun row =>
    (checkpoint.token id).isSome && decide (naming row.instanceToken ≠ checkpoint.token id)

def gone (checkpoint : Checkpoint) (rows : List MemoryRow) (id : String) : Bool :=
  (currentRow rows id).isNone || replaced checkpoint rows id

def attribution (checkpoint : Checkpoint) (rows : List MemoryRow) (deletions : List Deletion)
    (entry : String × Tier)
    : Option AttributedDeletion :=
  if gone checkpoint rows entry.1 then
    (deletionOf checkpoint deletions entry.1).map fun record =>
      ⟨entry.1, entry.2, record.moment⟩
  else none

def unexplained (checkpoint : Checkpoint) (rows : List MemoryRow) (deletions : List Deletion)
    (entry : String × Tier)
    : Option UnexplainedLoss :=
  if gone checkpoint rows entry.1 && (deletionOf checkpoint deletions entry.1).isNone
      && entry.2.durable
  then some ⟨entry.1, entry.2, replaced checkpoint rows entry.1⟩
  else none

def tierChange (rows : List MemoryRow) (entry : String × Tier) : Option TierChange :=
  (currentRow rows entry.1).bind fun row =>
    if row.tier ≠ entry.2 then some ⟨entry.1, entry.2, row.tier⟩ else none

def attributedDeletes (checkpoint : Checkpoint) (rows : List MemoryRow)
    (deletions : List Deletion)
    : List AttributedDeletion :=
  checkpoint.ids.filterMap (attribution checkpoint rows deletions)

def losses (checkpoint : Checkpoint) (rows : List MemoryRow) (deletions : List Deletion)
    : List UnexplainedLoss :=
  checkpoint.ids.filterMap (unexplained checkpoint rows deletions)

def tierChanges (checkpoint : Checkpoint) (rows : List MemoryRow) : List TierChange :=
  checkpoint.ids.filterMap (tierChange rows)

def leaves (rows : List MemoryRow) (tier : Tier) (id : String) (held : Tier) : Bool :=
  decide (held = tier) && (currentRow rows id).isNone

/-- How far a tier's count fell beyond what the named ids explain. -/
def unexplainedDecrease (checkpoint : Checkpoint) (rows : List MemoryRow)
    (deletions : List Deletion) (tier : Tier)
    : Int :=
  let attributedOut := (attributedDeletes checkpoint rows deletions).countP fun deletion =>
    leaves rows tier deletion.id deletion.tier
  let lostOut := (losses checkpoint rows deletions).countP fun loss =>
    leaves rows tier loss.id loss.tier
  let changedOut := (tierChanges checkpoint rows).countP fun change =>
    decide (change.source = tier ∧ change.target ≠ tier)
  let changedIn := (tierChanges checkpoint rows).countP fun change =>
    decide (change.target = tier ∧ change.source ≠ tier)
  ((checkpoint.byDurability tier : Int) - tallyByDurability rows tier)
    - (attributedOut + lostOut + changedOut - changedIn)

structure Verdict where
  healthy : Bool
  total : Nat
  counts : Tier → Nat
  attributedDeletes : List AttributedDeletion
  tierChanges : List TierChange
  losses : List UnexplainedLoss
  unexplainedDecrease : List (Tier × Int)

def compareScan (checkpoint : Checkpoint) (rows : List MemoryRow) (deletions : List Deletion)
    : Verdict :=
  let decreases := [Tier.permanent, .persistent].filterMap fun tier =>
    let unexplained := unexplainedDecrease checkpoint rows deletions tier
    if 0 < unexplained then some (tier, unexplained) else none
  { healthy := (losses checkpoint rows deletions).isEmpty && decreases.isEmpty
    total := rows.length
    counts := tallyByDurability rows
    attributedDeletes := attributedDeletes checkpoint rows deletions
    tierChanges := tierChanges checkpoint rows
    losses := losses checkpoint rows deletions
    unexplainedDecrease := decreases }

-- The history

def deletionRecordsToPrune (checkpoint : Checkpoint) (deletions : List Deletion) : List String :=
  (deletions.filter fun record =>
    checkpoint.historyIds.contains record.id || !checkpoint.needs record).map Deletion.id

def historyMargin : Int := 300000

/-- The instant before which history may be pruned: the oldest watermark less the margin;
none when there is none or one is missing or no date. `parse` is `Date.parse`.
-/
def retentionCutoff (parse : String → Option Int) (watermarks : List (Option String))
    : Option Int :=
  let mark := fun watermark : Option String => (naming watermark).bind parse
  if watermarks.any fun watermark => (mark watermark).isNone then none
  else (watermarks.filterMap mark).min?.map (· - historyMargin)

def historyRowsToPrune (parse : String → Option Int) (deletions : List Deletion) (cutoff : Int)
    (cap : Nat)
    : List Deletion :=
  ((deletions.filter fun record => (parse record.moment).any (· < cutoff)).mergeSort
    fun left right => !decide (textLt right.moment left.moment)).take cap

/-- The ids `prune-history` deletes; none when it refuses. -/
def planPruneHistory (parse : String → Option Int) (checkpoints : List Checkpoint) (now : Int)
    (cap : Nat) (deletions : List Deletion)
    : Option (List String) :=
  (retentionCutoff parse (checkpoints.map Checkpoint.watermark)).map fun cutoff =>
    (historyRowsToPrune parse deletions (min cutoff (now - historyMargin)) cap).map Deletion.id

def pruned (ids : List String) (deletions : List Deletion) : List Deletion :=
  deletions.filter fun record => !ids.contains record.id

-- What a scan says

def Present (checkpoint : Checkpoint) (rows : List MemoryRow) (id : String) : Prop :=
  ∃ row, currentRow rows id = some row
    ∧ (checkpoint.token id = none ∨ naming row.instanceToken = checkpoint.token id)

def Accounted (checkpoint : Checkpoint) (deletions : List Deletion) (id : String) : Prop :=
  ∃ record ∈ deletions, record.memoryId = id ∧ record.id ∉ checkpoint.historyIds
    ∧ checkpoint.attests record = true

structure Checkpoint.Agrees (checkpoint : Checkpoint) : Prop where
  distinct : InsertionMap.Distinct checkpoint.ids
  counts : ∀ tier,
    checkpoint.byDurability tier = checkpoint.ids.countP fun entry => entry.2 = tier

section

variable {checkpoint : Checkpoint} {rows : List MemoryRow} {deletions : List Deletion}
  {id : String} {tier : Tier}

theorem not_gone_iff : gone checkpoint rows id = false ↔ Present checkpoint rows id := by
  unfold gone replaced Present
  cases currentRow rows id with
  | none => simp
  | some row =>
    cases token : checkpoint.token id with
    | none => simp
    | some held => simp

theorem isSome_deletionOf
    : (deletionOf checkpoint deletions id).isSome = true ↔ Accounted checkpoint deletions id := by
  have keeps : ∀ (records : List Deletion) (start : Option Deletion),
      (records.foldl (fun latest record =>
        match latest with
        | none => some record
        | some earlier =>
          if textLt earlier.moment record.moment then some record else some earlier)
        start).isSome = (start.isSome || !records.isEmpty) := by
    intro records
    induction records with
    | nil => simp
    | cons record rest ih =>
      intro start
      rw [List.foldl_cons, ih]
      cases start with
      | none => rfl
      | some earlier =>
        dsimp only
        split <;> rfl
  unfold deletionOf Accounted
  rw [keeps, Option.isSome_none, Bool.false_or, Bool.not_eq_true',
    List.isEmpty_eq_false_iff_exists_mem]
  refine exists_congr fun record => ?_
  simp [List.mem_filter, and_comm, and_left_comm]

theorem mem_losses
    : id ∈ (losses checkpoint rows deletions).map UnexplainedLoss.id
      ↔ ∃ tier, (id, tier) ∈ checkpoint.ids ∧ tier.durable = true
        ∧ ¬ Present checkpoint rows id ∧ ¬ Accounted checkpoint deletions id := by
  simp only [← not_gone_iff, ← isSome_deletionOf, losses, List.mem_map, List.mem_filterMap]
  constructor
  · rintro ⟨loss, ⟨⟨other, tier⟩, listed, named⟩, rfl⟩
    unfold unexplained at named
    split at named
    · rename_i lost
      cases named
      simp only [Bool.and_eq_true] at lost
      exact ⟨tier, listed, lost.2, by simp [lost.1.1], by simpa using lost.1.2⟩
    · cases named
  · rintro ⟨tier, listed, durable, missing, unrecorded⟩
    refine ⟨⟨id, tier, replaced checkpoint rows id⟩, ⟨(id, tier), listed, ?_⟩, rfl⟩
    rw [Bool.not_eq_false] at missing
    rw [Bool.not_eq_true, Option.isSome_eq_false_iff] at unrecorded
    simp [unexplained, missing, unrecorded, durable]

theorem losses_distinct (h : InsertionMap.Distinct checkpoint.ids)
    : ((losses checkpoint rows deletions).map UnexplainedLoss.id).Nodup := by
  refine h.sublist ?_
  unfold losses
  generalize checkpoint.ids = entries
  induction entries with
  | nil => exact List.Sublist.slnil
  | cons entry rest ih =>
    rw [List.filterMap_cons, List.map_cons]
    split
    · exact ih.cons _
    rename_i named
    unfold unexplained at named
    split at named
    · cases named
      exact ih.cons_cons _
    · cases named

/-- What became of a listed id of a tier: it was deleted, lost or moved to another tier, or a
row of the tier is stored under it, as under an id that moved to the tier.
-/
theorem entry_count (h : tier.durable = true) (entry : String × Tier)
    : (if entry.2 = tier then 1 else 0)
        + (if (tierChange rows entry).any
            (fun change => decide (change.target = tier ∧ change.source ≠ tier)) then 1 else 0)
      = (if (attribution checkpoint rows deletions entry).any
            (fun deletion => leaves rows tier deletion.id deletion.tier) then 1 else 0)
        + (if (unexplained checkpoint rows deletions entry).any
            (fun loss => leaves rows tier loss.id loss.tier) then 1 else 0)
        + (if (tierChange rows entry).any
            (fun change => decide (change.source = tier ∧ change.target ≠ tier)) then 1 else 0)
        + (if (currentRow rows entry.1).any (·.tier = tier) then 1 else 0 : Nat) := by
  obtain ⟨id, held⟩ := entry
  unfold tierChange attribution unexplained leaves gone
  cases current : currentRow rows id with
  | none =>
    by_cases same : held = tier
    · cases deletionOf checkpoint deletions id <;> simp [same, current, h]
    · cases deletionOf checkpoint deletions id <;> cases durable : held.durable <;>
        simp [same, current]
  | some row =>
    have stored (other : Bool) : (if other = true then
          (deletionOf checkpoint deletions id).map fun record =>
            AttributedDeletion.mk id held record.moment
        else none).any (fun deletion =>
          decide (deletion.tier = tier) && (currentRow rows deletion.id).isNone) = false := by
      cases other <;> cases deletionOf checkpoint deletions id <;> simp [current]
    have kept (other : Bool) : (if other = true then
          some (UnexplainedLoss.mk id held (replaced checkpoint rows id)) else none).any
        (fun loss => decide (loss.tier = tier) && (currentRow rows loss.id).isNone)
        = false := by
      cases other <;> simp [current]
    rw [stored, kept]
    by_cases same : row.tier = held
    · subst same
      simp
    by_cases source : held = tier
    · have apart : row.tier ≠ tier := fun equal => same (equal.trans source.symm)
      simp [source, apart]
    · have apart : tier ≠ held := fun equal => source equal.symm
      by_cases target : row.tier = tier <;> simp [same, source, target, apart]

theorem stored_le_tally (h : InsertionMap.Distinct checkpoint.ids) (tier : Tier)
    : checkpoint.ids.countP (fun entry => (currentRow rows entry.1).any (·.tier = tier))
      ≤ tallyByDurability rows tier := by
  unfold tallyByDurability
  rw [List.countP_eq_length_filter, List.countP_eq_length_filter,
    ← List.length_map (f := Prod.fst), ← List.length_map (f := MemoryRow.id)]
  have distinct : ((checkpoint.ids.filter fun entry =>
      (currentRow rows entry.1).any (·.tier = tier)).map Prod.fst).Nodup :=
    h.sublist (List.filter_sublist.map _)
  refine (List.subperm_of_subset distinct ?_).length_le
  intro id member
  obtain ⟨entry, inside, rfl⟩ := List.mem_map.mp member
  have live := (List.mem_filter.mp inside).2
  cases found : currentRow rows entry.1 with
  | none =>
    rw [found] at live
    cases live
  | some row =>
    rw [found] at live
    have stored := List.mem_reverse.mp (List.mem_of_find?_eq_some found)
    have named := List.find?_some found
    exact List.mem_map.mpr ⟨row, List.mem_filter.mpr ⟨stored, live⟩, by simpa using named⟩

theorem countP_filterMap_any {α β : Type} (f : α → Option β) (p : β → Bool) (l : List α)
    : (l.filterMap f).countP p = l.countP fun a => (f a).any p := by
  induction l with
  | nil => rfl
  | cons a rest ih =>
    cases found : f a <;> simp [found, ih, List.countP_cons]

theorem unexplainedDecrease_nonpos (h : checkpoint.Agrees) (durable : tier.durable = true)
    : unexplainedDecrease checkpoint rows deletions tier ≤ 0 := by
  have split : ∀ entries : List (String × Tier),
      entries.countP (fun entry => entry.2 = tier)
        + (entries.filterMap (tierChange rows)).countP
            (fun change => decide (change.target = tier ∧ change.source ≠ tier))
      = (entries.filterMap (attribution checkpoint rows deletions)).countP
            (fun deletion => leaves rows tier deletion.id deletion.tier)
        + (entries.filterMap (unexplained checkpoint rows deletions)).countP
            (fun loss => leaves rows tier loss.id loss.tier)
        + (entries.filterMap (tierChange rows)).countP
            (fun change => decide (change.source = tier ∧ change.target ≠ tier))
        + entries.countP (fun entry => (currentRow rows entry.1).any (·.tier = tier)) := by
    intro entries
    simp only [countP_filterMap_any]
    induction entries with
    | nil => rfl
    | cons entry rest ih =>
      have here := @entry_count checkpoint rows deletions tier durable entry
      simp only [List.countP_cons, decide_eq_true_eq] at ih here ⊢
      omega
  have stored := @stored_le_tally checkpoint rows h.distinct tier
  have counted := split checkpoint.ids
  rw [← h.counts tier] at counted
  unfold unexplainedDecrease attributedDeletes losses tierChanges
  dsimp only
  omega

theorem healthy_iff (h : checkpoint.Agrees)
    : (compareScan checkpoint rows deletions).healthy = true
      ↔ losses checkpoint rows deletions = [] := by
  have permanent := @unexplainedDecrease_nonpos checkpoint rows deletions .permanent h rfl
  have persistent := @unexplainedDecrease_nonpos checkpoint rows deletions .persistent h rfl
  simp [compareScan, permanent, persistent]

theorem losses_append_added {added : List MemoryRow}
    (fresh : ∀ row ∈ added, ∀ tier, (row.id, tier) ∉ checkpoint.ids)
    : losses checkpoint (rows ++ added) deletions = losses checkpoint rows deletions := by
  unfold losses
  refine List.filterMap_congr ?_
  rintro ⟨id, tier⟩ listed
  have others : ∀ row ∈ added.reverse, ¬ decide (row.id = id) = true := by
    intro row member same
    exact fresh row (List.mem_reverse.mp member) tier (of_decide_eq_true same ▸ listed)
  have current : currentRow (rows ++ added) id = currentRow rows id := by
    unfold currentRow
    rw [List.reverse_append, List.find?_append, List.find?_eq_none.mpr others]
    rfl
  unfold unexplained gone replaced
  dsimp only
  rw [current]

theorem compareScan_congr {other : List Deletion}
    (same : ∀ id tier, (id, tier) ∈ checkpoint.ids → tier.durable = true
      → (Accounted checkpoint deletions id ↔ Accounted checkpoint other id))
    (h : checkpoint.Agrees)
    : losses checkpoint rows deletions = losses checkpoint rows other
      ∧ (compareScan checkpoint rows deletions).healthy
        = (compareScan checkpoint rows other).healthy := by
  have lost : losses checkpoint rows deletions = losses checkpoint rows other := by
    unfold losses
    refine List.filterMap_congr ?_
    rintro ⟨id, tier⟩ listed
    unfold unexplained
    cases durable : tier.durable with
    | false => simp
    | true =>
      have equal : (deletionOf checkpoint deletions id).isNone
          = (deletionOf checkpoint other id).isNone := by
        rw [← Option.not_isSome, ← Option.not_isSome, Bool.eq_iff_iff, Bool.not_eq_true',
          Bool.not_eq_true', ← Bool.not_eq_true, ← Bool.not_eq_true, isSome_deletionOf,
          isSome_deletionOf, same id tier listed durable]
      dsimp only
      rw [equal]
  refine ⟨lost, ?_⟩
  rw [Bool.eq_iff_iff, healthy_iff h, healthy_iff h, lost]

-- Checkpoints of a table

theorem foldl_set_rows {ν : Type} (value : MemoryRow → ν) (map : InsertionMap String ν)
    (fresh : (map.map Prod.fst ++ rows.map MemoryRow.id).Nodup)
    : rows.foldl (fun map row => map.set row.id (value row)) map
      = map ++ rows.map fun row => (row.id, value row) := by
  induction rows generalizing map with
  | nil => simp
  | cons row rest ih =>
    rw [List.map_cons, List.nodup_middle, List.nodup_cons] at fresh
    have unset : map.get row.id = none :=
      InsertionMap.get_eq_none fun listed => fresh.1 (List.mem_append_left _ listed)
    rw [List.foldl_cons, InsertionMap.set_fresh unset, ih]
    · simp
    · rw [List.map_append, List.append_assoc]
      exact List.nodup_middle.mpr (List.nodup_cons.mpr fresh)

theorem emptyCheckpoint_agrees (scannedAt : String) (seen : List String)
    (h : (rows.map MemoryRow.id).Nodup)
    : (emptyCheckpoint scannedAt rows deletions seen).Agrees := by
  have ids : (emptyCheckpoint scannedAt rows deletions seen).ids
      = rows.map fun row => (row.id, row.tier) :=
    foldl_set_rows MemoryRow.tier [] (by simpa using h)
  refine ⟨?_, ?_⟩
  · rw [ids, InsertionMap.Distinct, List.map_map]
    exact h
  · intro tier
    rw [ids, List.countP_map]
    rfl

theorem textLt_of_lt_of_not_lt {a b c : String} (hab : ¬ textLt a b) (hac : textLt a c)
    : textLt b c := by
  rcases textLt_trichotomy a b with less | same | more
  · exact absurd less hab
  · exact same ▸ hac
  · exact textLt_trans more hac

theorem pulledBack_spec (skips : Deletion → Bool) (watermark : String) (record : Deletion)
    : ¬ textLt watermark (pulledBack skips watermark record)
      ∧ (skips record = false → record.moment ≠ ""
        → ¬ textLt record.moment (pulledBack skips watermark record)) := by
  unfold pulledBack
  split
  · rename_i skipped
    exact ⟨textLt_irrefl _, fun unskipped => by simp [skipped] at unskipped⟩
  split
  · rename_i earlier
    exact ⟨textLt_asymm earlier.2, fun _ _ => textLt_irrefl _⟩
  · rename_i later
    exact ⟨textLt_irrefl _, fun _ dated less => later ⟨dated, less⟩⟩

theorem foldl_pulledBack (skips : Deletion → Bool) (records : List Deletion) (start : String)
    : ¬ textLt start (records.foldl (pulledBack skips) start)
      ∧ ∀ record ∈ records, skips record = false → record.moment ≠ ""
        → ¬ textLt record.moment (records.foldl (pulledBack skips) start) := by
  induction records generalizing start with
  | nil => exact ⟨textLt_irrefl start, by simp⟩
  | cons record rest ih =>
    obtain ⟨back, own⟩ := pulledBack_spec skips start record
    obtain ⟨below, all⟩ := ih (pulledBack skips start record)
    rw [List.foldl_cons]
    refine ⟨fun above => below (textLt_of_lt_of_not_lt back above), ?_⟩
    intro other member unskipped dated above
    rcases List.mem_cons.mp member with rfl | later
    · exact below (textLt_of_lt_of_not_lt (own unskipped dated) above)
    · exact all other later unskipped dated above

/-- The watermark of a new checkpoint is no later than any record it was built with and its
next scan may need.
-/
theorem emptyCheckpoint_watermark (scannedAt : String) (rows : List MemoryRow)
    (deletions : List Deletion) (seen : List String) {record : Deletion}
    (known : record ∈ deletions) (dated : record.moment ≠ "")
    (needed : (emptyCheckpoint scannedAt rows deletions seen).needs record = true)
    (unseen : record.id ∉ (emptyCheckpoint scannedAt rows deletions seen).historyIds)
    : ∃ mark, (emptyCheckpoint scannedAt rows deletions seen).watermark = some mark
      ∧ ¬ textLt record.moment mark := by
  refine ⟨_, rfl, ?_⟩
  have absent : (emptyCheckpoint scannedAt rows deletions seen).historyIds.contains record.id
      = false := by
    rw [Bool.eq_false_iff, ne_eq, List.contains_iff_mem]
    exact unseen
  refine (foldl_pulledBack (fun record =>
    (emptyCheckpoint scannedAt rows deletions seen).historyIds.contains record.id
      || !(emptyCheckpoint scannedAt rows deletions seen).needs record)
    deletions scannedAt).2 record known ?_ dated
  rw [absent, needed]
  rfl

-- Pruned histories

theorem accounted_pruned {ids : List String}
    (spared : ∀ record ∈ deletions, record.memoryId = id → record.id ∉ checkpoint.historyIds
      → checkpoint.attests record = true → record.id ∉ ids)
    : Accounted checkpoint deletions id ↔ Accounted checkpoint (pruned ids deletions) id := by
  constructor
  · rintro ⟨record, stored, same, unseen, attested⟩
    have left := spared record stored same unseen attested
    refine ⟨record, List.mem_filter.mpr ⟨stored, ?_⟩, same, unseen, attested⟩
    simpa using left
  · rintro ⟨record, stored, rest⟩
    exact ⟨record, (List.mem_filter.mp stored).1, rest⟩

theorem accounted_own_prune (distinct : InsertionMap.Distinct checkpoint.ids)
    (keyed : (deletions.map Deletion.id).Nodup) (listed : (id, tier) ∈ checkpoint.ids)
    (durable : tier.durable = true)
    : Accounted checkpoint deletions id
      ↔ Accounted checkpoint (pruned (deletionRecordsToPrune checkpoint deletions) deletions)
          id := by
  refine accounted_pruned ?_
  rintro record stored same unseen attested taken
  obtain ⟨other, selected, equal⟩ := List.mem_map.mp taken
  obtain ⟨known, idle⟩ := List.mem_filter.mp selected
  obtain rfl := List.inj_on_of_nodup_map keyed known stored equal
  have needed : checkpoint.needs other = true := by
    rw [Checkpoint.needs, same, distinct.get_of_mem listed, attested]
    simpa using durable
  simp [needed, unseen] at idle

theorem retentionCutoff_le {parse : String → Option Int} {watermarks : List (Option String)}
    {cutoff : Int} (h : retentionCutoff parse watermarks = some cutoff) {watermark : String}
    (named : some watermark ∈ watermarks) {mark : Int} (nonempty : watermark ≠ "")
    (read : parse watermark = some mark)
    : cutoff ≤ mark - historyMargin := by
  unfold retentionCutoff at h
  dsimp only at h
  split at h
  · cases h
  obtain ⟨oldest, least, rfl⟩ := Option.map_eq_some_iff.mp h
  have bound := (List.min?_eq_some_iff.mp least).2 mark
    (List.mem_filterMap.mpr ⟨some watermark, named, by rw [naming_some nonempty]; exact read⟩)
  omega

def Covers (parse : String → Option Int) (checkpoint : Checkpoint) (record : Deletion) : Prop :=
  ∃ watermark mark due, checkpoint.watermark = some watermark ∧ watermark ≠ ""
    ∧ parse watermark = some mark ∧ parse record.moment = some due
    ∧ mark - historyMargin ≤ due

theorem accounted_planned_prune {parse : String → Option Int} {checkpoints : List Checkpoint}
    {now : Int} {cap : Nat} {ids : List String}
    (plan : planPruneHistory parse checkpoints now cap deletions = some ids)
    (keyed : (deletions.map Deletion.id).Nodup) (named : checkpoint ∈ checkpoints)
    (covered : ∀ record ∈ deletions, checkpoint.needs record = true
      → record.id ∉ checkpoint.historyIds → Covers parse checkpoint record)
    (distinct : InsertionMap.Distinct checkpoint.ids) (listed : (id, tier) ∈ checkpoint.ids)
    (durable : tier.durable = true)
    : Accounted checkpoint deletions id ↔ Accounted checkpoint (pruned ids deletions) id := by
  obtain ⟨cutoff, before, rfl⟩ := Option.map_eq_some_iff.mp plan
  refine accounted_pruned ?_
  rintro record stored same unseen attested taken
  obtain ⟨other, selected, equal⟩ := List.mem_map.mp taken
  have sorted := List.mem_mergeSort.mp (List.mem_of_mem_take selected)
  obtain ⟨known, old⟩ := List.mem_filter.mp sorted
  obtain rfl := List.inj_on_of_nodup_map keyed known stored equal
  have needed : checkpoint.needs other = true := by
    rw [Checkpoint.needs, same, distinct.get_of_mem listed, attested]
    simpa using durable
  obtain ⟨watermark, mark, due, marked, nonempty, read, dated, recent⟩ :=
    covered other stored needed unseen
  have bound := retentionCutoff_le before (List.mem_map.mpr ⟨checkpoint, named, marked⟩)
    nonempty read
  rw [dated] at old
  have early : due < min cutoff (now - historyMargin) := by simpa using old
  omega

end

/-- What a scan says of a checkpoint, a table and a deletion history, and what a prune of the
history keeps for it: a scan is healthy exactly when every durable incarnation is stored or
accounted for, names each other one once, and no row added since changes that; the scan's own
prune, and a prune over checkpoints that cover the records they need, change neither.
-/
structure ScanExact (checkpoint : Checkpoint) (rows : List MemoryRow) (deletions : List Deletion)
    : Prop where
  healthy : (compareScan checkpoint rows deletions).healthy = true
    ↔ ∀ id tier, (id, tier) ∈ checkpoint.ids → tier.durable = true
      → Present checkpoint rows id ∨ Accounted checkpoint deletions id
  named : ∀ id, id ∈ (compareScan checkpoint rows deletions).losses.map UnexplainedLoss.id
    ↔ ∃ tier, (id, tier) ∈ checkpoint.ids ∧ tier.durable = true
      ∧ ¬ Present checkpoint rows id ∧ ¬ Accounted checkpoint deletions id
  once : ((compareScan checkpoint rows deletions).losses.map UnexplainedLoss.id).Nodup
  unhidden : ∀ added : List MemoryRow, (∀ row ∈ added, ∀ tier, (row.id, tier) ∉ checkpoint.ids)
    → (compareScan checkpoint (rows ++ added) deletions).losses
        = (compareScan checkpoint rows deletions).losses
      ∧ (compareScan checkpoint (rows ++ added) deletions).healthy
        = (compareScan checkpoint rows deletions).healthy
  ownPrune : (deletions.map Deletion.id).Nodup
    → (compareScan checkpoint rows
        (pruned (deletionRecordsToPrune checkpoint deletions) deletions)).healthy
      = (compareScan checkpoint rows deletions).healthy
  plannedPrune : (deletions.map Deletion.id).Nodup → ∀ parse checkpoints now cap ids,
    checkpoint ∈ checkpoints
    → (∀ record ∈ deletions, checkpoint.needs record = true
      → record.id ∉ checkpoint.historyIds → Covers parse checkpoint record)
    → planPruneHistory parse checkpoints now cap deletions = some ids
    → (compareScan checkpoint rows (pruned ids deletions)).healthy
      = (compareScan checkpoint rows deletions).healthy

theorem scanExact {checkpoint : Checkpoint} (h : checkpoint.Agrees) (rows : List MemoryRow)
    (deletions : List Deletion)
    : ScanExact checkpoint rows deletions where
  healthy := by
    rw [healthy_iff h, ← List.map_eq_nil_iff (f := UnexplainedLoss.id),
      List.eq_nil_iff_forall_not_mem]
    simp only [mem_losses]
    constructor
    · intro none id tier listed durable
      by_contra lost
      rw [not_or] at lost
      exact none id ⟨tier, listed, durable, lost⟩
    · rintro all id ⟨tier, listed, durable, absent, unrecorded⟩
      exact (all id tier listed durable).elim absent unrecorded
  named _ := mem_losses
  once := losses_distinct h.distinct
  unhidden added fresh := by
    have same := @losses_append_added checkpoint rows deletions added fresh
    refine ⟨same, ?_⟩
    rw [Bool.eq_iff_iff, healthy_iff h, healthy_iff h, same]
  ownPrune keyed := (compareScan_congr (fun _ _ listed durable =>
    accounted_own_prune h.distinct keyed listed durable) h).2.symm
  plannedPrune keyed parse checkpoints now cap ids named covered plan :=
    (compareScan_congr (fun _ _ listed durable =>
      accounted_planned_prune plan keyed named covered h.distinct listed durable) h).2.symm

/-- Scans of checkpoints that agree with themselves are exact. A scan writes only such
checkpoints, with a watermark no later than a record it had read and the next scan may need.
-/
theorem integrity_scan_exact (checkpoint : Checkpoint) (rows : List MemoryRow)
    (deletions : List Deletion)
    : (checkpoint.Agrees → ScanExact checkpoint rows deletions)
      ∧ ((rows.map MemoryRow.id).Nodup → ∀ scannedAt seen,
        (emptyCheckpoint scannedAt rows deletions seen).Agrees
        ∧ ∀ record ∈ deletions, record.moment ≠ ""
          → (emptyCheckpoint scannedAt rows deletions seen).needs record = true
          → record.id ∉ (emptyCheckpoint scannedAt rows deletions seen).historyIds
          → ∃ mark, (emptyCheckpoint scannedAt rows deletions seen).watermark = some mark
            ∧ ¬ textLt record.moment mark) := by
  refine ⟨fun agrees => scanExact agrees rows deletions, fun keyed scannedAt seen => ⟨?_, ?_⟩⟩
  · exact emptyCheckpoint_agrees scannedAt seen keyed
  · intro record known dated needed unseen
    exact emptyCheckpoint_watermark scannedAt rows deletions seen known dated needed unseen

-- Scans that are not

def oneMemory : Checkpoint :=
  emptyCheckpoint "2026-01-01T00:10:00.000Z" [⟨"m", some "permanent", some "t"⟩] [] []

def oneDeletion : Deletion := ⟨"d", "m", some "t", "2026-01-01T00:00:00.000Z"⟩

/-- A count that fell alone alerts; the prune of a scan under another checkpoint, and a prune
of a record dated long before it was committed, take what a checkpoint needs.
-/
theorem scans_are_not_exact
    : (¬ ∀ checkpoint rows deletions, (∀ id tier, (id, tier) ∈ checkpoint.ids
          → tier.durable = true
          → Present checkpoint rows id ∨ Accounted checkpoint deletions id)
        → (compareScan checkpoint rows deletions).healthy = true)
      ∧ (¬ ∀ checkpoint other rows deletions, checkpoint.Agrees → other.Agrees
        → (compareScan checkpoint rows deletions).healthy = true
        → (compareScan checkpoint rows
            (pruned (deletionRecordsToPrune other deletions) deletions)).healthy = true)
      ∧ ¬ ∀ parse checkpoint now cap ids rows deletions, checkpoint.Agrees
        → planPruneHistory parse [checkpoint] now cap deletions = some ids
        → (compareScan checkpoint rows deletions).healthy = true
        → (compareScan checkpoint rows (pruned ids deletions)).healthy = true := by
  have agrees : oneMemory.Agrees := emptyCheckpoint_agrees _ [] (by simp)
  have before : (compareScan oneMemory [] [oneDeletion]).healthy = true := by decide
  have lost : (compareScan oneMemory [] []).healthy = false := by decide
  refine ⟨fun exact => ?_, fun safe => ?_, fun safe => ?_⟩
  · have alert := exact { oneMemory with ids := [] } [] [] (by simp)
    revert alert
    decide
  · have empty : (emptyCheckpoint "2026-01-01T00:20:00.000Z" [] [oneDeletion] []).Agrees :=
      emptyCheckpoint_agrees _ [] (by simp)
    have after := safe oneMemory _ [] [oneDeletion] agrees empty before
    revert after
    decide
  · let parse : String → Option Int := fun text =>
      if text = oneDeletion.moment then some 0 else some 600000
    have plan : planPruneHistory parse [oneMemory] 600000 500 [oneDeletion] = some ["d"] := by
      have cutoff : retentionCutoff parse [oneMemory.watermark] = some 300000 := by decide
      have dated : parse oneDeletion.moment = some 0 := by decide
      simp [planPruneHistory, historyRowsToPrune, cutoff, dated, historyMargin]
      rfl
    have after := safe parse oneMemory 600000 500 ["d"] [] [oneDeletion] agrees plan before
    revert after
    decide

end Flair.Integrity
