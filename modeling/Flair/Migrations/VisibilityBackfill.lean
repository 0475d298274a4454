import Flair.Migrations.MemoryRows

/-! The batch of the migration that fills an absent visibility from the durability, under each
row's write lock. Follows `resources/migrations/visibility-backfill.ts` and the attempts of
`resources/write-back.ts`, no other writer changing a row during the run.
-/

namespace Flair.Migrations

open Dynamic WriteBack

/-- What the rows of a run meet, for each id: its lock, and what its reads and commits do. -/
structure BackfillWorld where
  lock : String → LockAnswer
  readable : String → Nat → Bool
  commit : String → Nat → Commit

variable (world : BackfillWorld)

def deriveVisibilityFromDurability (durability : Option Value) : String :=
  if durability = some (.str "permanent") ∨ durability = some (.str "persistent") then "shared"
  else "private"

/-- `pendingCondition` -/
def pendingVisibility (row : Record) : Bool :=
  row.get "visibility" ≠ some (.str "private") && row.get "visibility" ≠ some (.str "shared")

/-- The decision of the write-back: only an absent visibility is filled. -/
def visibilityPlan (existing : Record) : Plan :=
  if isNullish (existing.get "visibility") = false then .skip none
  else
    .update
      (.ofFields
        [("visibility", .str (deriveVisibilityFromDurability (existing.get "durability")))])
      .idempotent

def writeBackAttempts : Nat := 3

/-- How a write-back ends: the row it leaves, its decision or error, and whether it reported an
unconfirmed attempt.
-/
structure WriteBackEnd where
  row : Record
  answer : Except String Plan
  unconfirmed : Bool

/-- The attempts of `writeBackCommittedRow` for a row the scan selected as `basis`. -/
def backfillAttempts (basis : Record) : Nat → Nat → Bool → Record → WriteBackEnd
  | 0, _, unconfirmed, row => ⟨row, .error "conflict", unconfirmed⟩
  | more + 1, attempt, unconfirmed, row =>
    if world.readable (rowId row) attempt = false then
      ⟨row, .error "read failed", unconfirmed⟩
    else
      match visibilityPlan row with
      | .skip reason => ⟨row, .ok (.skip reason), unconfirmed⟩
      | plan =>
        if sameStoredRow (some row) (some basis) = false then
          ⟨row, .error "conflict", unconfirmed⟩
        else
          match world.commit (rowId row) attempt with
          | .fails => ⟨row, .error "storage", unconfirmed⟩
          | .resolves landed readable =>
            let (stored, read) :=
              Commit.over landed readable row (row.assign (plan.staged ""))
            match read with
            | none => ⟨stored, .error "read failed", true⟩
            | some committed =>
              if committedShowsWrite committed (some basis) plan "" then
                ⟨stored, .ok plan, unconfirmed⟩
              else if attempt = writeBackAttempts then
                ⟨stored, .error "unconfirmed", true⟩
              else backfillAttempts basis more (attempt + 1) true stored

def backfillAttempt (existing : Record) : RowStep :=
  if world.lock (rowId existing) ≠ .done then ⟨existing, .left⟩
  else
    let ended := backfillAttempts world existing writeBackAttempts 1 false existing
    match ended.answer with
    | .error message => ⟨ended.row, .threw true ended.unconfirmed message⟩
    | .ok (.skip _) => ⟨ended.row, if ended.unconfirmed then .unconfirmed else .left⟩
    | .ok (.update _ _) => ⟨ended.row, .touched⟩
    | .ok (.write _ _) => ⟨ended.row, .left⟩

/-- `run`: the first rows that match the pending condition, each written under its lock. -/
def runVisibilityBackfill (batchSize : Nat) (table : MemoryTable)
    : MemoryTable × Except BatchError RunBatchResult :=
  runBatch (backfillAttempt world) ((table.rows.filter pendingVisibility).take batchSize) table

-- What an attempt makes of a row

structure Filled (row stored : Record) : Prop where
  id : rowId stored = rowId row
  filled : stored = row ∨ pendingVisibility stored = false

variable {world}

theorem visibilityPlan_cases (row : Record)
    : visibilityPlan row = .skip none
      ∨ ∃ visibility, (visibility = "shared" ∨ visibility = "private")
        ∧ visibilityPlan row = .update (.ofFields [("visibility", .str visibility)]) .idempotent := by
  unfold visibilityPlan
  split
  · exact .inl rfl
  refine .inr ⟨_, ?_, rfl⟩
  unfold deriveVisibilityFromDurability
  split
  · exact .inl rfl
  · exact .inr rfl

theorem filled_assign {visibility : String} (derived : visibility = "shared" ∨ visibility = "private")
    (row : Record)
    : rowId (row.assign (.ofFields [("visibility", .str visibility)])) = rowId row
      ∧ pendingVisibility (row.assign (.ofFields [("visibility", .str visibility)])) = false := by
  constructor
  · simp [rowId, Record.ofFields]
  · rcases derived with rfl | rfl <;> simp [pendingVisibility, Record.ofFields]

theorem pending_of_shown {stored : Record} {basis : Option Record} {visibility : String}
    (derived : visibility = "shared" ∨ visibility = "private")
    (shown : committedShowsWrite (some stored) basis
      (.update (.ofFields [("visibility", .str visibility)]) .idempotent) "" = true)
    : pendingVisibility stored = false := by
  simp only [committedShowsWrite, Bool.and_eq_true] at shown
  have values := of_decide_eq_true shown.2 "visibility"
    (by simp [Plan.values, Record.has, Record.ofFields])
  have field : stored.get "visibility" = some (.str visibility) := by
    simpa [Plan.values, Plan.markerField, Record.ofFields] using values
  rcases derived with rfl | rfl <;> simp [pendingVisibility, field]

theorem backfillAttempts_filled {basis start : Record} (more attempt : Nat) (unconfirmed : Bool)
    {row : Record} (before : Filled start row)
    : Filled start (backfillAttempts world basis more attempt unconfirmed row).row
      ∧ ∀ patch evidence, (backfillAttempts world basis more attempt unconfirmed row).answer
          = .ok (.update patch evidence)
        → pendingVisibility (backfillAttempts world basis more attempt unconfirmed row).row
          = false := by
  induction more generalizing attempt unconfirmed row with
  | zero => exact ⟨before, nofun⟩
  | succ more ih =>
    rw [backfillAttempts]
    split
    · exact ⟨before, nofun⟩
    rcases visibilityPlan_cases row with skip | ⟨visibility, derived, plan⟩
    · rw [skip]
      exact ⟨before, nofun⟩
    rw [plan]
    dsimp only
    obtain ⟨sameId, settled⟩ := filled_assign derived row
    split
    · exact ⟨before, nofun⟩
    split
    · exact ⟨before, nofun⟩
    rename_i landed readable commit
    obtain ⟨stored, ended⟩ : ∃ stored, Commit.over landed readable row
        (row.assign ((Plan.update (.ofFields [("visibility", .str visibility)])
          .idempotent).staged ""))
        = (stored, if readable then some (some stored) else none) := ⟨_, rfl⟩
    have after : Filled start stored := by
      obtain rfl := congrArg Prod.fst ended
      cases landed with
      | false => exact before
      | true => exact ⟨sameId.trans before.id, .inr settled⟩
    rw [ended]
    cases readable with
    | false => exact ⟨after, nofun⟩
    | true =>
      simp only [if_true]
      split
      · rename_i shown
        exact ⟨after, fun _ _ _ => pending_of_shown derived shown⟩
      · split
        · exact ⟨after, nofun⟩
        · exact ih (attempt + 1) true after

theorem backfillAttempt_filled (row : Record)
    : Filled row (backfillAttempt world row).row
      ∧ ((backfillAttempt world row).outcome = .touched
        → pendingVisibility (backfillAttempt world row).row = false) := by
  unfold backfillAttempt
  split
  · exact ⟨⟨rfl, .inl rfl⟩, nofun⟩
  obtain ⟨filled, verified⟩ := @backfillAttempts_filled world row row writeBackAttempts 1 false
    row ⟨rfl, .inl rfl⟩
  dsimp only
  split
  · exact ⟨filled, nofun⟩
  · refine ⟨filled, ?_⟩
    split <;> nofun
  · rename_i patch evidence answer
    exact ⟨filled, fun _ => verified patch evidence answer⟩
  · exact ⟨filled, nofun⟩

end Flair.Migrations
