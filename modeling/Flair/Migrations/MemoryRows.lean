import Flair.Foundations.Batches
import Flair.WriteBack.StoredRows

/-! The Memory rows a migration works through, the loop of its `run` over the candidates of a
batch, and what that batch reports. Follows the common part of
`resources/migrations/embedding-stamp.ts` and `resources/migrations/visibility-backfill.ts`.
-/

namespace Flair.Migrations

open Dynamic WriteBack Batching

-- The table

/-- `String(row.id ?? "")` -/
def rowId (row : Record) : String := if isNullish (row.get "id") then "" else idText (row.get "id")

/-- The stored rows in the order a search yields them. -/
structure MemoryTable where
  rows : List Record
  distinct : (rows.map rowId).Nodup

def MemoryTable.get (table : MemoryTable) (id : String) : Option Record :=
  table.rows.find? fun row => decide (rowId row = id)

def MemoryTable.replace (table : MemoryTable) (row : Record) : MemoryTable where
  rows := table.rows.map fun stored => if rowId stored = rowId row then row else stored
  distinct := by
    have same : (table.rows.map fun stored => if rowId stored = rowId row then row else stored).map
        rowId = table.rows.map rowId := by
      rw [List.map_map]
      refine List.map_congr_left ?_
      intro stored _
      rw [Function.comp_apply]
      split
      · rename_i match_
        exact match_.symm
      · rfl
    rw [same]
    exact table.distinct

inductive Commit where
  | fails
  | resolves (landed readable : Bool)
deriving DecidableEq

/-- What one acquisition of a row's write lock answers. -/
inductive LockAnswer where
  | done
  | busy
  | unknown
  | unavailable
deriving DecidableEq

/-- The row a commit leaves and what a fresh read of it answers, `none` being a read that
fails.
-/
def Commit.over (landed readable : Bool) (row written : Record)
    : Record × Option (Option Record) :=
  let stored := if landed then written else row
  (stored, if readable then some (some stored) else none)

-- One batch

/-- What a batch counts for one row. A throw may carry the batch's outcomes, and this row as
unconfirmed.
-/
inductive RowOutcome where
  | left
  | touched
  | unconfirmed
  | threw (wrapped unconfirmed : Bool) (message : String)
deriving DecidableEq

/-- The row as stored after its turn, and what the batch counts. -/
structure RowStep where
  row : Record
  outcome : RowOutcome
deriving DecidableEq

structure RunBatchResult where
  touchedIds : List String
  unconfirmedIds : List String
deriving DecidableEq

def RunBatchResult.processed (result : RunBatchResult) : Nat := result.touchedIds.length

/-- What `run` throws: a `BatchOutcomeError`, or an error that carries no outcomes. -/
inductive BatchError where
  | outcome (touchedIds unconfirmedIds : List String) (message : String)
  | other (message : String)
deriving DecidableEq

def BatchError.message : BatchError → String
  | .outcome _ _ message => message
  | .other message => message

/-- A batch underway: the table and the ids reported so far. -/
structure Batch where
  table : MemoryTable
  result : RunBatchResult

def Batch.turn (attempt : Record → RowStep) (batch : Batch) (candidate : Record)
    : Batch × Option BatchError :=
  if rowId candidate = "" then (batch, none)
  else
    match batch.table.get (rowId candidate) with
    | none => (batch, none)
    | some existing =>
      let step := attempt existing
      let table := batch.table.replace step.row
      let { touchedIds, unconfirmedIds } := batch.result
      match step.outcome with
      | .left => ({ batch with table }, none)
      | .touched =>
        ({ table, result := { touchedIds := touchedIds ++ [rowId candidate], unconfirmedIds } },
          none)
      | .unconfirmed =>
        ({ table,
           result := { touchedIds, unconfirmedIds := unconfirmedIds ++ [rowId candidate] } },
          none)
      | .threw wrapped unconfirmed message =>
        ({ batch with table },
          some (if wrapped then
            .outcome touchedIds
              (if unconfirmed then unconfirmedIds ++ [rowId candidate] else unconfirmedIds)
              message
          else .other message))

def Batch.turns (attempt : Record → RowStep) : List Record → Batch → Batch × Option BatchError
  | [], batch => (batch, none)
  | candidate :: rest, batch =>
    match batch.turn attempt candidate with
    | (next, none) => turns attempt rest next
    | (next, some failure) => (next, some failure)

/-- `run`: the candidates of a batch, one after the other. -/
def runBatch (attempt : Record → RowStep) (candidates : List Record) (table : MemoryTable)
    : MemoryTable × Except BatchError RunBatchResult :=
  match Batch.turns attempt candidates { table, result := ⟨[], []⟩ } with
  | (batch, none) => (batch.table, .ok batch.result)
  | (batch, some failure) => (batch.table, .error failure)

-- The turns of a batch as a job

def turnRow (attempt : Record → RowStep) (row : Record) : Record :=
  if rowId row = "" then row else (attempt row).row

def turnTouched (attempt : Record → RowStep) (row : Record) : Bool :=
  rowId row ≠ "" && decide ((attempt row).outcome = .touched)

variable {attempt : Record → RowStep}

variable {before after : List Record} {row : Record}

theorem MemoryTable.get_of_split {table : MemoryTable} (rows : table.rows = before ++ row :: after)
    : table.get (rowId row) = some row := by
  have distinct := table.distinct
  rw [rows, List.map_append, List.map_cons, List.nodup_append] at distinct
  obtain ⟨-, -, apart⟩ := distinct
  have none : before.find? (fun stored => decide (rowId stored = rowId row)) = none := by
    rw [List.find?_eq_none]
    intro stored member same
    exact apart _ (List.mem_map_of_mem member) _ List.mem_cons_self (by simpa using same)
  simp [MemoryTable.get, rows, List.find?_append, none]

theorem MemoryTable.replace_of_split {table : MemoryTable} {next : Record}
    (rows : table.rows = before ++ row :: after) (same : rowId next = rowId row)
    : (table.replace next).rows = before ++ next :: after := by
  have distinct := table.distinct
  rw [rows, List.map_append, List.map_cons, List.nodup_append, List.nodup_cons] at distinct
  obtain ⟨-, ⟨absent, -⟩, apart⟩ := distinct
  simp only [MemoryTable.replace, rows, List.map_append, List.map_cons, same, if_true]
  congr 1
  · conv_rhs => rw [← List.map_id before]
    refine List.map_congr_left ?_
    intro stored member
    exact if_neg fun found =>
      apart _ (List.mem_map_of_mem member) _ List.mem_cons_self found
  · congr 1
    conv_rhs => rw [← List.map_id after]
    refine List.map_congr_left ?_
    intro stored member
    exact if_neg fun found => absent (List.mem_map.mpr ⟨stored, member, found⟩)

def touchedOf (attempt : Record → RowStep) (candidates : List Record) : List String :=
  (candidates.filter (turnTouched attempt)).map rowId

/-- One turn that does not throw makes of its row what `turnRow` says, and touches it when
`turnTouched` does.
-/
theorem Batch.turn_ok {batch next : Batch} (sameId : ∀ row, rowId (attempt row).row = rowId row)
    (rows : batch.table.rows = before ++ row :: after)
    (turned : batch.turn attempt row = (next, none))
    : next.table.rows = before ++ turnRow attempt row :: after
      ∧ next.result.touchedIds = batch.result.touchedIds ++ touchedOf attempt [row] := by
  unfold Batch.turn at turned
  split at turned
  · rename_i unnamed
    obtain rfl := (Prod.mk.inj turned).1
    simp [turnRow, touchedOf, turnTouched, unnamed, rows]
  · rename_i named
    rw [MemoryTable.get_of_split rows] at turned
    have replaced := MemoryTable.replace_of_split rows (sameId row)
    dsimp only at turned
    split at turned
    all_goals
      rename_i outcome
    · obtain rfl := (Prod.mk.inj turned).1
      exact ⟨by simp [turnRow, named, replaced], by simp [touchedOf, turnTouched, outcome]⟩
    · obtain rfl := (Prod.mk.inj turned).1
      exact ⟨by simp [turnRow, named, replaced], by simp [touchedOf, turnTouched, outcome, named]⟩
    · obtain rfl := (Prod.mk.inj turned).1
      exact ⟨by simp [turnRow, named, replaced], by simp [touchedOf, turnTouched, outcome]⟩
    · cases (Prod.mk.inj turned).2

theorem Batch.turns_ok {job : Job Record} (sameId : ∀ row, rowId (attempt row).row = rowId row)
    (process : job.process = turnRow attempt) {size : Nat} {before rest : List Record}
    {batch final : Batch} (rows : batch.table.rows = before ++ rest)
    (ended : batch.turns attempt ((rest.filter job.pending).take size) = (final, none))
    : final.table.rows = before ++ job.batch size rest
      ∧ final.result.touchedIds
        = batch.result.touchedIds ++ touchedOf attempt ((rest.filter job.pending).take size) := by
  induction rest generalizing size before batch with
  | nil =>
    rw [List.filter_nil, List.take_nil] at ended ⊢
    obtain rfl := (Prod.mk.inj ended).1
    exact ⟨by cases size <;> simp [Job.batch, rows], by simp [touchedOf]⟩
  | cons row rest ih =>
    cases size with
    | zero =>
      obtain rfl := (Prod.mk.inj ended).1
      simp [touchedOf, rows]
    | succ size =>
      by_cases pending : job.pending row = true
      · rw [List.filter_cons_of_pos pending, List.take_succ_cons] at ended ⊢
        unfold Batch.turns at ended
        split at ended
        · rename_i next turned
          obtain ⟨placed, touched⟩ := Batch.turn_ok sameId rows turned
          obtain ⟨later, ids⟩ := @ih size (before ++ [turnRow attempt row]) next
            (by simp [placed]) ended
          refine ⟨by simp [later, Job.batch, pending, process], ?_⟩
          rw [ids, touched, List.append_assoc]
          simp only [touchedOf, List.filter_cons, List.filter_nil]
          split <;> simp
        · cases (Prod.mk.inj ended).2
      · rw [List.filter_cons_of_neg pending] at ended ⊢
        obtain ⟨later, ids⟩ := @ih (size + 1) (before ++ [row]) batch (by simp [rows]) ended
        exact ⟨by simp [later, Job.batch, pending], ids⟩

/-- A `run` over the pending rows that does not throw is one batch of the job, and reports as
processed what the batch gets done.
-/
theorem runBatch_ok {job : Job Record} (sameId : ∀ row, rowId (attempt row).row = rowId row)
    (process : job.process = turnRow attempt) (done : job.done = turnTouched attempt)
    {size : Nat} {table final : MemoryTable} {result : RunBatchResult}
    (ran : runBatch attempt ((table.rows.filter job.pending).take size) table
      = (final, .ok result))
    : final.rows = job.batch size table.rows
      ∧ result.processed = job.processed size table.rows := by
  unfold runBatch at ran
  split at ran
  · rename_i batch ended
    obtain ⟨same, outcome⟩ := Prod.mk.inj ran
    obtain rfl := same
    cases outcome
    obtain ⟨rows, touched⟩ := @Batch.turns_ok _ job sameId process size []
      table.rows { table, result := ⟨[], []⟩ } _ rfl ended
    refine ⟨rows, ?_⟩
    rw [RunBatchResult.processed, touched, Job.processed, done]
    simp [touchedOf, List.countP_eq_length_filter]
  · cases (Prod.mk.inj ran).2

end Flair.Migrations
