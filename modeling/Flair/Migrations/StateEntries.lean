import Flair.Foundations.CappedTally
import Flair.Migrations.Runner

/-! The durable record of a migration: its entry of the state file, and the unconfirmed rows
that entry lists or counts. Follows `resources/migrations/state.ts` and the unconfirmed
bookkeeping of `resources/migrations/runner.ts`.
-/

namespace Flair.Migrations

open Tallying

-- The state file

inductive MigrationOutcome where
  | success
  | halted
  | failed
deriving DecidableEq

structure MigrationStateEntry where
  completedAtVersion : Option String
  completedAt : Option String
  lastOutcome : MigrationOutcome
  reason : Option String
  rowsProcessed : Option Nat
  rowsRemaining : Option Nat
  rowsUnconfirmed : Option Nat
  unconfirmedIds : Option (List String)
deriving DecidableEq

abbrev MigrationStateFile := String → Option MigrationStateEntry

def readMigrationState (readable : Bool) (file : MigrationStateFile) : MigrationStateFile :=
  if readable then file else fun _ => none

/-- What the file system, and the lock it is written under, make of one state write. -/
structure StateIO where
  readable : Bool
  landed : Bool
deriving DecidableEq

/-- The file is read again, the entry set in it and the whole renamed over the old one, or the
write is refused and the old file stays.
-/
def writeMigrationStateEntry (io : StateIO) (file : MigrationStateFile) (id : String)
    (entry : MigrationStateEntry)
    : MigrationStateFile :=
  if io.landed then Function.update (readMigrationState io.readable file) id (some entry)
  else file

def isShortCircuited (state : MigrationStateFile) (migrationId runningVersion : String) : Bool :=
  match state migrationId with
  | some entry =>
    entry.lastOutcome = .success && entry.completedAtVersion = some runningVersion
  | none => false

-- The unconfirmed record

abbrev UnconfirmedRecord := Tally String

def unconfirmedIdsLimit : Nat := 100

/-- The two state-file fields, absent when the record counts nothing. -/
def unconfirmedState : Option UnconfirmedRecord → Option Nat × Option (List String)
  | none => (none, none)
  | some record =>
    if record.count = 0 then (none, none)
    else
      (some record.count,
        if 0 < record.ids.length then some (record.ids.take unconfirmedIdsLimit) else none)

def withUnconfirmedRecord (entry : MigrationStateEntry) (record : Option UnconfirmedRecord)
    : MigrationStateEntry :=
  { entry with
    rowsUnconfirmed := (unconfirmedState record).1
    unconfirmedIds := (unconfirmedState record).2 }

def recordedUnconfirmed (entry : Option MigrationStateEntry) : Option UnconfirmedRecord :=
  let ids := (entry.bind (·.unconfirmedIds)).getD []
  let rowsUnconfirmed := entry.bind (·.rowsUnconfirmed)
  if ids.length = 0 ∧ rowsUnconfirmed.getD 0 = 0 then none
  else some { ids, count := rowsUnconfirmed.getD ids.length }

/-- What a migration's `checkUnconfirmed` answers for a listed id. -/
inductive UnconfirmedVerdict where
  | atTarget
  | noRow
  | pending
  | other
  | threw
deriving DecidableEq

def UnconfirmedVerdict.clears : UnconfirmedVerdict → Bool
  | .atTarget | .noRow => true
  | .pending | .other | .threw => false

/-- The record that survives a re-read of its listed ids; `none` for a migration that cannot
re-read.
-/
def reverifyUnconfirmed (checkUnconfirmed : Option (String → UnconfirmedVerdict))
    (entry : Option MigrationStateEntry)
    : Option UnconfirmedRecord :=
  (recordedUnconfirmed entry).map fun recorded =>
    match checkUnconfirmed with
    | none => recorded
    | some check => recorded.relist (recorded.ids.filter fun id => !(check id).clears)

def clearedIds (checkUnconfirmed : Option (String → UnconfirmedVerdict))
    (entry : Option MigrationStateEntry)
    : List String :=
  match recordedUnconfirmed entry, checkUnconfirmed with
  | some recorded, some check => recorded.ids.filter fun id => (check id).clears
  | _, _ => []

def recordChanged (entry : MigrationStateEntry) (survived : Option UnconfirmedRecord) : Bool :=
  let listed := (entry.unconfirmedIds.map List.length).getD 0
  (survived.map (·.count)).getD 0 ≠ entry.rowsUnconfirmed.getD listed
    || (survived.map (·.ids.length)).getD 0 ≠ listed

-- What an entry covers

def recordOf (record : Option UnconfirmedRecord) : UnconfirmedRecord := record.getD .empty

def Accounted (entry : Option MigrationStateEntry) (owed : Finset String) : Prop :=
  let record := recordOf (recordedUnconfirmed entry)
  (owed \ record.ids.toFinset).card ≤ record.unlisted ∧ owed.card ≤ record.count

instance (entry : Option MigrationStateEntry) (owed : Finset String)
    : Decidable (Accounted entry owed) :=
  inferInstanceAs (Decidable (_ ∧ _))

variable {record : Option UnconfirmedRecord} {entry : Option MigrationStateEntry}
  {owed : Finset String}

theorem accounted_of_covers (h : (recordOf (recordedUnconfirmed entry)).Covers owed)
    : Accounted entry owed :=
  ⟨h.beyond, h.card_le⟩

theorem covers_written {written : MigrationStateEntry} (h : (recordOf record).Covers owed)
    (fields : (written.rowsUnconfirmed, written.unconfirmedIds) = unconfirmedState record)
    : (recordOf (recordedUnconfirmed (some written))).Covers owed := by
  obtain ⟨rows, ids⟩ := Prod.mk.inj fields
  cases record with
  | none => exact (h.eq_empty rfl) ▸ Tally.covers_none
  | some record =>
    by_cases nothing : record.count = 0
    · exact (h.eq_empty nothing) ▸ Tally.covers_none
    simp only [if_neg nothing] at rows ids
    have capped := h.cap unconfirmedIdsLimit
    have same : recordedUnconfirmed (some written) = some (record.cap unconfirmedIdsLimit) := by
      simp only [recordedUnconfirmed, Option.bind_some, rows, ids, Option.getD_some]
      rw [if_neg (fun both => nothing both.2)]
      cases listed : record.ids with
      | nil => simp [Tally.cap, listed]
      | cons id rest => simp [Tally.cap, listed]
    rw [same]
    exact capped

theorem covers_reverified (checkUnconfirmed : Option (String → UnconfirmedVerdict))
    (h : (recordOf (recordedUnconfirmed entry)).Covers owed)
    : (recordOf (reverifyUnconfirmed checkUnconfirmed entry)).Covers
        (owed \ (clearedIds checkUnconfirmed entry).toFinset) := by
  unfold reverifyUnconfirmed clearedIds
  cases recorded : recordedUnconfirmed entry with
  | none =>
    rw [recorded] at h
    exact h.mono Finset.sdiff_subset
  | some record =>
    rw [recorded] at h
    cases checkUnconfirmed with
    | none => exact h.mono Finset.sdiff_subset
    | some check =>
      refine h.relist ?_
      intro id member
      obtain ⟨owes, uncleared⟩ := Finset.mem_sdiff.mp member
      by_cases listed : id ∈ record.ids
      · refine .inl (List.mem_filter.mpr ⟨listed, ?_⟩)
        cases answer : (check id).clears with
        | false => rfl
        | true =>
          exact absurd (List.mem_toFinset.mpr (List.mem_filter.mpr ⟨listed, answer⟩))
            uncleared
      · exact .inr ⟨owes, listed⟩

end Flair.Migrations
