import Flair.Migrations.EmbeddingStamp
import Flair.Migrations.Runner
import Flair.Migrations.VisibilityBackfill

/-! Which rows the batch loop reaches: it always ends, and a row that could be processed is
reached exactly when fewer rows that cannot be come before it than a batch holds.
-/

namespace Flair.Migrations

open Dynamic Batching

def turnJob (pending : Record → Bool) (attempt : Record → RowStep)
    (settles : ∀ row, (attempt row).outcome = .touched → pending (attempt row).row = false)
    (keeps : ∀ row, (attempt row).row = row ∨ pending (attempt row).row = false)
    : Job Record where
  pending
  process := turnRow attempt
  done := turnTouched attempt
  settles row touched := by
    simp only [turnTouched, Bool.and_eq_true, decide_eq_true_eq] at touched
    rw [turnRow, if_neg touched.1]
    exact settles row touched.2
  keeps row _ := by
    unfold turnRow
    split
    · exact .inl rfl
    · exact keeps row

def stampJob (world : StampWorld) (current : String) (id : getModelId world = .ok current)
    : Job Record :=
  turnJob (fun row => !rowEmbeddingCurrent world row current) (stampAttempt world current)
    (fun row touched => by
      simp [(stampAttempt_reembedded (getModelId_space id) row).2 touched])
    (fun row => by
      simpa using (stampAttempt_reembedded (getModelId_space id) row).1.current)

def backfillJob (world : BackfillWorld) : Job Record :=
  turnJob pendingVisibility (backfillAttempt world)
    (fun row => (backfillAttempt_filled row).2)
    (fun row => (backfillAttempt_filled row).1.filled)

def idleJob : Job Record where
  pending _ := false
  process row := row
  done _ := false
  settles _ _ := rfl
  keeps _ _ := .inl rfl

/-- The two migrations, each with what its rows meet. -/
inductive Migration where
  | embeddingStamp (world : StampWorld)
  | visibilityBackfill (world : BackfillWorld)

namespace Migration

def run : Migration → Nat → MemoryTable → MemoryTable × Except BatchError RunBatchResult
  | .embeddingStamp world => runEmbeddingStamp world
  | .visibilityBackfill world => runVisibilityBackfill world

def job : Migration → Job Record
  | .embeddingStamp world =>
    match id : getModelId world with
    | .ok current => stampJob world current id
    | .error _ => idleJob
  | .visibilityBackfill world => backfillJob world

theorem job_embeddingStamp {world : StampWorld} {current : String}
    (id : getModelId world = .ok current)
    : (embeddingStamp world).job = stampJob world current id := by
  unfold job
  dsimp only
  split
  · rename_i other same
    obtain rfl := Except.ok.inj (id.symm.trans same)
    rfl
  · rename_i same
    cases id.symm.trans same

variable {migration : Migration} {batchSize : Nat}

theorem run_ok (room : 0 < batchSize) {table final : MemoryTable} {result : RunBatchResult}
    (ran : migration.run batchSize table = (final, .ok result))
    : final.rows = migration.job.batch batchSize table.rows
      ∧ result.processed = migration.job.processed batchSize table.rows := by
  cases migration with
  | embeddingStamp world =>
    simp only [run, runEmbeddingStamp] at ran
    split at ran
    · cases (Prod.mk.inj ran).2
    rename_i current id
    rw [staleCandidates_eq room, List.nil_append, List.length_nil, Nat.sub_zero] at ran
    rw [job_embeddingStamp id]
    exact @runBatch_ok _ (stampJob world current id)
      (fun row => (stampAttempt_reembedded (getModelId_space id) row).1.id) rfl rfl
      batchSize _ _ _ ran
  | visibilityBackfill world =>
    exact @runBatch_ok _ (backfillJob world)
      (fun row => (backfillAttempt_filled row).1.id) rfl rfl batchSize _ _ _ ran

-- The loop

theorem batchLoop_ended {fuel : Nat} (room : 0 < batchSize) {state final : LoopState}
    (ended : batchLoop migration.run batchSize fuel state = some (final, .ended))
    : migration.job.loop batchSize fuel state.table.rows = some final.table.rows := by
  induction fuel generalizing state with
  | zero => cases ended
  | succ fuel ih =>
    rw [batchLoop] at ended
    split at ended
    · cases (Prod.mk.inj (Option.some.inj ended)).2
    rename_i table result ran
    obtain ⟨rows, processed⟩ := run_ok room ran
    rw [Job.loop, ← processed, ← rows]
    dsimp only at ended
    split at ended
    · rename_i nothing
      obtain rfl := (Prod.mk.inj (Option.some.inj ended)).1
      rw [if_pos nothing]
    · rename_i more
      rw [if_neg more]
      exact ih ended

theorem batchLoop_ends {fuel : Nat} (room : 0 < batchSize) {state : LoopState}
    (enough : state.table.rows.countP migration.job.pending < fuel)
    : ∃ ended, batchLoop migration.run batchSize fuel state = some ended := by
  induction fuel generalizing state with
  | zero => exact absurd enough (Nat.not_lt_zero _)
  | succ fuel ih =>
    rw [batchLoop]
    split
    · exact ⟨_, rfl⟩
    rename_i table result ran
    obtain ⟨rows, processed⟩ := run_ok room ran
    dsimp only
    split
    · exact ⟨_, rfl⟩
    have fewer := @Job.countP_batch _ migration.job batchSize state.table.rows
    refine ih ?_
    rw [rows]
    omega

/-- The batch loop of either migration ends, whatever the table. When it ends without a halt,
it has processed every row whose processing succeeds if fewer pending rows that fail come
before each than a batch holds; and only if, when a failing row is left as it was.
-/
theorem batch_loop_coverage (migration : Migration) {batchSize : Nat} (room : 0 < batchSize)
    (state : LoopState)
    : (∃ fuel ended, batchLoop migration.run batchSize fuel state = some ended)
      ∧ ∀ fuel final, batchLoop migration.run batchSize fuel state = some (final, .ended)
        → ((∀ before row after, state.table.rows = before ++ row :: after
              → migration.job.workable row = true
              → before.countP migration.job.failing < batchSize)
            → migration.job.Covered state.table.rows final.table.rows)
          ∧ ((∀ row ∈ state.table.rows, migration.job.failing row = true
                → migration.job.stuck row = true)
            → (migration.job.Covered state.table.rows final.table.rows
              ↔ ∀ before row after, state.table.rows = before ++ row :: after
                → migration.job.workable row = true
                → before.countP migration.job.failing < batchSize)) := by
  constructor
  · obtain ⟨ended, stops⟩ := batchLoop_ends room (Nat.lt_succ_self
      (state.table.rows.countP migration.job.pending))
    exact ⟨_, ended, stops⟩
  · intro fuel final ended
    obtain ⟨enough, needed⟩ := Job.loop_covers (batchLoop_ended room ended)
    refine ⟨enough, fun settled => ⟨?_, enough⟩⟩
    intro covered before row after rows workable
    refine Nat.lt_of_le_of_lt ?_ (needed covered before row after rows workable)
    refine List.countP_mono_left ?_
    intro other member failing
    exact settled other (rows ▸ List.mem_append_left _ member) failing

def quietWorld : BackfillWorld where
  lock _ := .done
  readable _ _ := true
  commit _ _ := .resolves true true

def starvedTable : MemoryTable where
  rows :=
    (List.range 50).map
      (fun n => .ofFields [("id", .str (toString n)), ("visibility", .str "public")])
    ++ [.ofFields [("id", .str "late")]]
  distinct := by decide +kernel

/-- Witness: the loop over that table, with the runner's batch size. -/
theorem starved_loop_ends
    : ∃ fuel ended, batchLoop (visibilityBackfill quietWorld).run
        (postureBatchSize .derivedOnly) fuel ⟨starvedTable, ⟨0, []⟩⟩ = some ended :=
  (batch_loop_coverage (visibilityBackfill quietWorld) (postureBatchSize_pos .derivedOnly)
    ⟨starvedTable, ⟨0, []⟩⟩).1

/-- The first batch processes nothing, and the loop ends before the last row. -/
theorem last_row_starved
    : ∃ final, batchLoop (visibilityBackfill quietWorld).run
        (postureBatchSize .derivedOnly) 1 ⟨starvedTable, ⟨0, []⟩⟩
        = some (final, .ended)
      ∧ ¬ (visibilityBackfill quietWorld).job.Covered starvedTable.rows final.table.rows := by
  have ran : (batchLoop (visibilityBackfill quietWorld).run (postureBatchSize .derivedOnly) 1
        ⟨starvedTable, ⟨0, []⟩⟩).map (fun ended => (ended.2, ended.1.table.rows[50]?))
      = some (.ended, starvedTable.rows[50]?) := by
    decide +kernel
  obtain ⟨⟨final, how⟩, looped, read⟩ := Option.map_eq_some_iff.mp ran
  obtain ⟨rfl, left⟩ := Prod.mk.inj read
  refine ⟨final, looped, fun covered => ?_⟩
  have reached := covered _ _ [] rfl (by decide)
  rw [List.length_map, List.length_range, left] at reached
  revert reached
  decide +kernel

end Migration

end Flair.Migrations
