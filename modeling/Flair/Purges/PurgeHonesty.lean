import Flair.Purges.MemoryPurge

/-! What a purge has removed and recorded at its reply, along every run beside other writers
that take the per-id locks.
-/

namespace Flair.Purges

open Dynamic Transition

-- What the call holds

namespace PurgeState

variable (state : PurgeState)

def targets : List String := state.stored.map Prod.fst

def gone (id : String) : Prop := state.tables.memory.get id = none

/-- A row of this call's in the history table names the id. -/
def recorded (id : String) : Prop :=
  ∃ uuid, state.historyIds.get id = some uuid ∧ (state.tables.history.get uuid).isSome

end PurgeState

/-- What holds from the delete transaction's commit until the locks are released. -/
structure Deleted (state : PurgeState) : Prop where
  committed : state.committed = true
  held : ∀ id ∈ state.targets, id ∈ state.held
  once : ∀ left right uuid, state.historyIds.get left = some uuid
    → state.historyIds.get right = some uuid → left = right
  kept : ∀ id uuid, state.historyIds.get id = some uuid → id ∈ state.targets
  named : ∀ id ∈ state.named, ∃ read ∈ state.reads, read.id = id
  covered : ∀ read ∈ state.reads, read.Covered state.targets

def Recorded (state : PurgeState) (among : String → Prop) : Prop :=
  ∀ id row, state.stored.get id = some row → among id
    → (state.recorded id ↔ keepsHistory row = true ∧ id ∉ state.droppedHistory)

structure Sorted (state : PurgeState) (run : PurgeRun) : Prop extends Deleted state where
  removed : ∀ id, id ∈ run.removedIds ↔ id ∈ state.targets ∧ state.gone id
  still : ∀ id, id ∈ run.stillStored ↔ id ∈ state.targets ∧ ¬ state.gone id
  recorded : Recorded state state.gone

structure Cleaned (state : PurgeState) (run : PurgeRun) : Prop extends Sorted state run where
  left : ∀ id, id ∈ run.stillStored → state.recorded id
    → ∃ uuid ∈ run.historyLeft, state.historyIds.get id = some uuid

def PurgeAnswer.early : PurgeAnswer → Bool
  | .historyCleanupUnconfirmed _ _ _ _ | .pointerCleanupFailed _ _ _ | .unconfirmed _ _
  | .removed _ _ => false
  | _ => true

def StageHolds (state : PurgeState) : PurgeStage → Prop
  | .idle | .resolving _ _ | .locking _ _ _ => state.committed = false
  | .rechecking ids _ lockedIds now =>
    state.committed = false ∧ state.held = lockedIds ∧ ResolvingHolds ids now
  | .deleting targets =>
    state.committed = false ∧ targets.Nodup ∧ (∀ id ∈ targets, id ∈ state.held)
      ∧ (∀ id ∈ state.named, ∃ read ∈ state.reads, read.id = id)
      ∧ ∀ read ∈ state.reads, read.Covered targets
  | .confirming targets => targets = state.targets ∧ Deleted state ∧ Recorded state fun _ => True
  | .clearingHistory run | .confirmingHistory run => Sorted state run
  | .deletingPointers run | .readingPointers run | .recheckingPointers run _ => Cleaned state run
  | .replying answer =>
    (answer.early = true ∧ state.committed = false)
      ∨ ∃ run, answer = state.answerOf run ∧ Cleaned state run
  | .answered _ | .threw => True

variable {state : PurgeState} {stage : PurgeStage}

theorem Deleted.goto (deleted : Deleted state)
    : Deleted (state.goto stage) :=
  ⟨deleted.committed, deleted.held, deleted.once, deleted.kept, deleted.named, deleted.covered⟩

variable {run : PurgeRun}

theorem Sorted.goto (sorted : Sorted state run)
    : Sorted (state.goto stage) run :=
  { sorted.toDeleted.goto with
    removed := sorted.removed
    still := sorted.still
    recorded := sorted.recorded }

theorem Cleaned.goto (cleaned : Cleaned state run)
    : Cleaned (state.goto stage) run :=
  { cleaned.toSorted.goto with left := cleaned.left }

theorem stageHolds_goto {next : PurgeStage} (holds : StageHolds state stage)
    : StageHolds (state.goto next) stage := by
  cases stage with
  | confirming targets => exact ⟨holds.1, holds.2.1.goto, holds.2.2⟩
  | clearingHistory run | confirmingHistory run => exact Sorted.goto holds
  | deletingPointers run | readingPointers run | recheckingPointers run pointers =>
    exact Cleaned.goto holds
  | replying answer =>
    rcases holds with early | ⟨run, same, cleaned⟩
    · exact .inl early
    · exact .inr ⟨run, same, cleaned.goto⟩
  | _ => exact holds

-- Other writers

/-- Tables that agree with the call's on what it has locked and recorded. -/
structure Agrees (state : PurgeState) (tables : PurgeTables) : Prop where
  gone : ∀ id ∈ state.held, tables.memory.get id = state.tables.memory.get id
  recorded : ∀ id, PurgeState.recorded { state with tables } id ↔ state.recorded id

variable {tables : PurgeTables}

theorem agrees_of_check (check : state.tables.agrees state.held state.historyIds tables = true)
    : Agrees state tables := by
  simp only [PurgeTables.agrees, Bool.and_eq_true, List.all_eq_true, decide_eq_true_eq] at check
  obtain ⟨rows, own⟩ := check
  refine ⟨fun id held => (rows id held).1, fun id => ?_⟩
  refine exists_congr fun uuid => and_congr_right fun its => ?_
  rw [own (id, uuid) (InsertionMap.mem_of_get its)]

theorem Deleted.others (deleted : Deleted state)
    : Deleted { state with tables } :=
  ⟨deleted.committed, deleted.held, deleted.once, deleted.kept, deleted.named, deleted.covered⟩

variable {id : String}

theorem Agrees.gone_iff (agrees : Agrees state tables) (deleted : Deleted state)
    (member : id ∈ state.targets)
    : PurgeState.gone { state with tables } id ↔ state.gone id := by
  unfold PurgeState.gone
  rw [agrees.gone id (deleted.held id member)]

theorem mem_targets_of_stored {row : Record} (stored : state.stored.get id = some row)
    : id ∈ state.targets :=
  List.mem_map.mpr ⟨(id, row), InsertionMap.mem_of_get stored, rfl⟩

theorem Sorted.others (sorted : Sorted state run) (agrees : Agrees state tables)
    : Sorted { state with tables } run := by
  have same : ∀ id ∈ state.targets, PurgeState.gone { state with tables } id ↔ state.gone id :=
    fun id member => agrees.gone_iff sorted.toDeleted member
  refine { sorted.toDeleted.others with removed := ?_, still := ?_, recorded := ?_ }
  · exact fun id => (sorted.removed id).trans
      (and_congr_right fun member => (same id member).symm)
  · exact fun id => (sorted.still id).trans
      (and_congr_right fun member => not_congr (same id member).symm)
  · intro id row stored gone
    exact (agrees.recorded id).trans
      (sorted.recorded id row stored ((same id (mem_targets_of_stored stored)).mp gone))

theorem Cleaned.others (cleaned : Cleaned state run) (agrees : Agrees state tables)
    : Cleaned { state with tables } run :=
  { cleaned.toSorted.others agrees with
    left := fun id still recorded => cleaned.left id still ((agrees.recorded id).mp recorded) }

theorem stageHolds_others (holds : StageHolds state stage) (agrees : Agrees state tables)
    : StageHolds { state with tables } stage := by
  cases stage with
  | confirming targets =>
    obtain ⟨same, deleted, recorded⟩ := holds
    exact ⟨same, deleted.others, fun id row stored among =>
      (agrees.recorded id).trans (recorded id row stored among)⟩
  | clearingHistory run | confirmingHistory run => exact Sorted.others holds agrees
  | deletingPointers run | readingPointers run | recheckingPointers run pointers =>
    exact Cleaned.others holds agrees
  | replying answer =>
    rcases holds with early | ⟨run, same, cleaned⟩
    · exact .inl early
    · exact .inr ⟨run, same, cleaned.others agrees⟩
  | _ => exact holds

-- The delete transaction

theorem recordMemoryDeletion_eq_some {now : String} {stored : Record} {record : DeletionRecord}
    (made : recordMemoryDeletion id stored now = some record)
    : keepsHistory stored = true ∧ record.memoryId = id := by
  rw [recordMemoryDeletion, Option.ite_none_right_eq_some] at made
  obtain ⟨keeps, same⟩ := made
  cases same
  exact ⟨keeps, rfl⟩

variable {targets uuids : List String} {uuid : String}

theorem mem_historyWrites {now : String} {record : DeletionRecord}
    : (uuid, record) ∈ PurgeState.historyWrites tables targets uuids now
      ↔ ∃ stored, (record.memoryId, uuid) ∈ targets.zip uuids
        ∧ tables.memory.get record.memoryId = some stored
        ∧ recordMemoryDeletion record.memoryId stored now = some record := by
  unfold PurgeState.historyWrites
  rw [List.mem_filterMap]
  constructor
  · rintro ⟨⟨id, other⟩, paired, made⟩
    obtain ⟨stored, held, made⟩ := Option.bind_eq_some_iff.mp made
    obtain ⟨made, recorded, same⟩ := Option.map_eq_some_iff.mp made
    obtain ⟨rfl, rfl⟩ := Prod.mk.inj same
    obtain ⟨-, rfl⟩ := recordMemoryDeletion_eq_some recorded
    exact ⟨stored, paired, held, recorded⟩
  · rintro ⟨stored, paired, held, recorded⟩
    refine ⟨(record.memoryId, uuid), paired, ?_⟩
    simp [held, recorded]

theorem eq_of_mem_zip {left right : String} (distinct : uuids.Nodup)
    (first : (left, uuid) ∈ targets.zip uuids) (second : (right, uuid) ∈ targets.zip uuids)
    : left = right := by
  induction targets generalizing uuids with
  | nil => simp at first
  | cons target rest ih =>
    cases uuids with
    | nil => simp at first
    | cons fresh others =>
      obtain ⟨absent, distinct⟩ := List.nodup_cons.mp distinct
      rw [List.zip_cons_cons, List.mem_cons] at first second
      rcases first with same | first <;> rcases second with same' | second
      · exact (Prod.mk.inj same).1.trans (Prod.mk.inj same').1.symm
      · obtain ⟨rfl, rfl⟩ := Prod.mk.inj same
        exact absurd (List.of_mem_zip second).2 absent
      · obtain ⟨rfl, rfl⟩ := Prod.mk.inj same'
        exact absurd (List.of_mem_zip first).2 absent
      · exact ih distinct first second

theorem exists_mem_zip (lengths : uuids.length = targets.length) (member : id ∈ targets)
    : ∃ uuid, (id, uuid) ∈ targets.zip uuids := by
  have unzipped : (targets.zip uuids).map Prod.fst = targets :=
    List.map_fst_zip lengths.ge
  rw [← unzipped] at member
  obtain ⟨⟨other, uuid⟩, paired, rfl⟩ := List.mem_map.mp member
  exact ⟨uuid, paired⟩

theorem isSome_get_foldl_set {κ ν : Type} [DecidableEq κ] {map : InsertionMap κ ν}
    {writes : List (κ × ν)} {key : κ}
    : ((writes.foldl (fun map write => map.set write.1 write.2) map).get key).isSome
      ↔ (map.get key).isSome ∨ key ∈ writes.map Prod.fst := by
  induction writes generalizing map with
  | nil => simp
  | cons first rest ih =>
    rw [List.foldl_cons, ih, InsertionMap.get_set, List.map_cons, List.mem_cons]
    by_cases same : key = first.1
    · simp [same]
    · simp [same]

theorem get_foldl_delete {κ ν : Type} [DecidableEq κ] {map : InsertionMap κ ν} {keys : List κ}
    {key : κ}
    : (keys.foldl InsertionMap.delete map).get key = if key ∈ keys then none else map.get key := by
  induction keys generalizing map with
  | nil => simp
  | cons first rest ih =>
    rw [List.foldl_cons, ih, InsertionMap.get_delete]
    by_cases same : key = first
    · simp [same]
    · simp [same]

theorem stored_of_present {memory : MemoryTable} (present : ∀ id ∈ targets, (memory.get id).isSome)
    : (targets.filterMap fun id => (memory.get id).map (id, ·)).map Prod.fst = targets := by
  induction targets with
  | nil => rfl
  | cons id rest ih =>
    obtain ⟨row, held⟩ := Option.isSome_iff_exists.mp (present id List.mem_cons_self)
    rw [List.filterMap_cons]
    simp only [held, Option.map_some, List.map_cons]
    rw [ih fun other member => present other (List.mem_cons_of_mem _ member)]

theorem get_of_stored {memory : MemoryTable} {row : Record}
    (stored : InsertionMap.get (targets.filterMap fun id => (memory.get id).map (id, ·)) id
      = some row)
    : memory.get id = some row := by
  obtain ⟨other, -, made⟩ := List.mem_filterMap.mp (InsertionMap.mem_of_get stored)
  obtain ⟨held, found, same⟩ := Option.map_eq_some_iff.mp made
  obtain ⟨rfl, rfl⟩ := Prod.mk.inj same
  exact found

theorem deleteRows_holds {dropped droppedHistory : List String} {now : String}
    (holds : StageHolds state (.deleting targets))
    (present : ∀ id ∈ targets, (state.tables.memory.get id).isSome)
    (lengths : uuids.length = targets.length) (distinct : uuids.Nodup)
    (fresh : ∀ uuid ∈ uuids, state.tables.history.get uuid = none)
    : StageHolds (state.deleteRows targets uuids now dropped droppedHistory)
        (.confirming targets) := by
  obtain ⟨-, -, held, named, covered⟩ := holds
  let next := state.deleteRows targets uuids now dropped droppedHistory
  let writes := PurgeState.historyWrites state.tables targets uuids now
  have same : next.targets = targets := stored_of_present present
  have ids : ∀ id uuid, next.historyIds.get id = some uuid
      → ∃ record : DeletionRecord, record.memoryId = id ∧ (uuid, record) ∈ writes := by
    intro id uuid its
    obtain ⟨⟨other, record⟩, member, equal⟩ := List.mem_map.mp (InsertionMap.mem_of_get its)
    obtain ⟨rfl, rfl⟩ := Prod.mk.inj equal
    exact ⟨record, rfl, member⟩
  refine ⟨same.symm, ⟨rfl, ?held, ?once, ?kept, named, ?covered⟩, ?recorded⟩
  case held => exact fun id member => held id (same ▸ member)
  case once =>
    intro left right uuid first second
    obtain ⟨record, rfl, member⟩ := ids left uuid first
    obtain ⟨other, rfl, member'⟩ := ids right uuid second
    obtain ⟨_, paired, -⟩ := mem_historyWrites.mp member
    obtain ⟨_, paired', -⟩ := mem_historyWrites.mp member'
    exact eq_of_mem_zip distinct paired paired'
  case kept =>
    intro id uuid its
    obtain ⟨record, rfl, member⟩ := ids id uuid its
    obtain ⟨_, paired, -⟩ := mem_historyWrites.mp member
    exact same.symm ▸ (List.of_mem_zip paired).1
  case covered => exact fun read member => same.symm ▸ covered read member
  case recorded =>
    intro id row stored _
    have read : state.tables.memory.get id = some row := get_of_stored stored
    constructor
    · rintro ⟨uuid, its, present⟩
      obtain ⟨record, rfl, member⟩ := ids id uuid its
      obtain ⟨stored', paired, found, made⟩ := mem_historyWrites.mp member
      obtain rfl := Option.some.inj (read.symm.trans found)
      refine ⟨(recordMemoryDeletion_eq_some made).1, ?_⟩
      rcases isSome_get_foldl_set.mp present with before | written
      · rw [fresh uuid (List.of_mem_zip paired).2] at before
        contradiction
      obtain ⟨⟨_, other⟩, kept, rfl⟩ := List.mem_map.mp written
      obtain ⟨there, undropped⟩ := List.mem_filter.mp kept
      obtain ⟨_, paired', -⟩ := mem_historyWrites.mp there
      rw [eq_of_mem_zip distinct paired paired']
      exact of_decide_eq_true undropped
    · rintro ⟨keeps, undropped⟩
      have member : id ∈ targets := same ▸ mem_targets_of_stored stored
      obtain ⟨uuid, paired⟩ := exists_mem_zip lengths member
      obtain ⟨record, rfl, made⟩ : ∃ record : DeletionRecord, record.memoryId = id
          ∧ recordMemoryDeletion id row now = some record := ⟨_, rfl, if_pos keeps⟩
      have write : (uuid, record) ∈ writes := mem_historyWrites.mpr ⟨row, paired, read, made⟩
      have entry : (record.memoryId, uuid) ∈ next.historyIds := List.mem_map.mpr ⟨_, write, rfl⟩
      have known : (next.historyIds.get record.memoryId).isSome :=
        InsertionMap.isSome_get_of_mem entry
      obtain ⟨uuid', its⟩ := Option.isSome_iff_exists.mp known
      refine ⟨uuid', its, isSome_get_foldl_set.mpr (.inr ?_)⟩
      obtain ⟨other, same', there⟩ := ids _ uuid' its
      rw [← same'] at undropped
      exact List.mem_map.mpr ⟨_, List.mem_filter.mpr ⟨there, decide_eq_true undropped⟩, rfl⟩

-- Steps

theorem confirm_sorted (holds : StageHolds state (.confirming targets))
    : Sorted state (state.confirm targets) := by
  obtain ⟨rfl, deleted, recorded⟩ := holds
  refine { deleted with removed := ?_, still := ?_, recorded := ?_ }
  · intro id
    simp [PurgeState.confirm, PurgeState.gone, List.mem_filter]
  · intro id
    simp [PurgeState.confirm, PurgeState.gone, List.mem_filter, Option.isSome_iff_ne_none]
  · exact fun id row stored _ => recorded id row stored trivial

theorem mem_staleHistory {stillStored : List String}
    : uuid ∈ state.staleHistory stillStored
      ↔ ∃ id ∈ stillStored, state.historyIds.get id = some uuid :=
  List.mem_filterMap

theorem Sorted.cleaned_of_none (sorted : Sorted state run)
    (none_ : state.staleHistory run.stillStored = [])
    : Cleaned state run := by
  refine { sorted with left := fun id still recorded => ?_ }
  obtain ⟨uuid, its, -⟩ := recorded
  have stale := mem_staleHistory.mpr ⟨id, still, its⟩
  simp [none_] at stale

theorem Sorted.deleteHistory (sorted : Sorted state run) (dropped : List String)
    : Sorted { state with
        tables := state.tables.deleteHistory (state.staleHistory run.stillStored) dropped } run := by
  refine { sorted with recorded := fun id row stored gone => ?_ }
  refine Iff.trans ?_ (sorted.recorded id row stored gone)
  refine exists_congr fun uuid => and_congr_right fun its => ?_
  have live : uuid ∉ (state.staleHistory run.stillStored).filter (· ∉ dropped) := by
    intro stale
    obtain ⟨other, still, its'⟩ := mem_staleHistory.mp (List.mem_of_mem_filter stale)
    obtain rfl := sorted.once _ _ _ its its'
    exact ((sorted.still id).mp still).2 gone
  simp only [PurgeTables.deleteHistory]
  rw [get_foldl_delete, if_neg live]

theorem Sorted.cleaned {historyLeft : List String} (sorted : Sorted state run)
    (left : ∀ uuid ∈ state.staleHistory run.stillStored,
      (state.tables.history.get uuid).isSome → uuid ∈ historyLeft)
    : Cleaned state { run with historyLeft } := by
  refine { sorted with left := fun id still recorded => ?_ }
  obtain ⟨uuid, its, present⟩ := recorded
  exact ⟨uuid, left uuid (mem_staleHistory.mpr ⟨id, still, its⟩) present, its⟩

theorem afterHistory_holds (cleaned : Cleaned state run)
    : StageHolds state (PurgeState.afterHistory run) := by
  unfold PurgeState.afterHistory
  split
  · exact cleaned
  · exact cleaned

variable {ids : List String} {now : Resolving}

theorem resolved_holds (uncommitted : state.committed = false)
    : StageHolds (state.resolved ids now) (state.resolved ids now).stage := by
  unfold PurgeState.resolved
  split
  · exact .inl ⟨rfl, uncommitted⟩
  · exact uncommitted

theorem mem_sortIds : id ∈ sortIds ids ↔ id ∈ ids :=
  (List.mergeSort_perm ids _).mem_iff

theorem rechecked_holds {lockedIds : List String} {attempt : Nat}
    (holds : StageHolds state (.rechecking ids attempt lockedIds now))
    (done : resolveNext state.tables.memory now = none)
    : StageHolds (state.rechecked ids attempt lockedIds now)
        (state.rechecked ids attempt lockedIds now).stage := by
  obtain ⟨uncommitted, held, resolving⟩ := holds
  unfold PurgeState.rechecked
  split
  · exact .inl ⟨rfl, uncommitted⟩
  case isFalse found =>
    split
    case isTrue same =>
      refine ⟨uncommitted, resolving.distinct, fun id member => ?_, ?_, resolving.reads⟩
      · have sorted : id ∈ sortIds now.targets := mem_sortIds.mpr member
        rw [same, ← held] at sorted
        exact sorted
      · exact resolved_all resolving done (by simpa using found)
    · split
      · exact uncommitted
      · exact .inl ⟨rfl, uncommitted⟩

theorem finish_holds (cleaned : Cleaned state run)
    : StageHolds (state.finish run) (state.finish run).stage :=
  .inr ⟨run, rfl, { cleaned with }⟩

variable {before after : PurgeState}

theorem purgeStep_holds {label : PurgeLabel} (holds : StageHolds before before.stage)
    (taken : purgeStep before label = some after)
    : StageHolds after after.stage := by
  cases label with
  | others tables =>
    rw [purgeStep, Option.ite_none_right_eq_some] at taken
    obtain ⟨check, same⟩ := taken
    cases same
    exact stageHolds_others holds (agrees_of_check check)
  | begin_ requested available =>
    simp only [purgeStep] at taken
    split at taken
    case h_1 stage =>
      rw [stage] at holds
      split at taken
      · cases taken
        exact .inl ⟨rfl, holds⟩
      split at taken
      · cases taken
        exact holds
      · cases taken
        exact .inl ⟨rfl, holds⟩
    · contradiction
  | resolve =>
    simp only [purgeStep] at taken
    split at taken
    case h_1 ids now stage =>
      rw [stage] at holds
      split at taken <;> cases taken
      · exact holds
      · exact resolved_holds holds
    case h_2 ids attempt lockedIds now stage =>
      rw [stage] at holds
      split at taken
      case h_1 next read =>
        cases taken
        exact ⟨holds.1, holds.2.1, resolveNext_holds holds.2.2 read⟩
      case h_2 done =>
        cases taken
        exact rechecked_holds holds done
    · contradiction
  | lock outcome =>
    simp only [purgeStep] at taken
    split at taken
    case h_1 ids attempt targets stage =>
      rw [stage] at holds
      cases outcome with
      | ran =>
        cases taken
        exact ⟨holds, rfl, startResolving_holds ids⟩
      | busy | unknown | unavailable =>
        cases taken
        exact .inl ⟨rfl, holds⟩
    · contradiction
  | deleteRows uuids now dropped droppedHistory throws =>
    simp only [purgeStep] at taken
    split at taken
    case h_1 targets stage =>
      rw [stage] at holds
      split at taken
      · cases taken
        exact .inl ⟨rfl, holds.1⟩
      case h_2 all =>
        split at taken
        case isTrue uuids_ =>
          obtain ⟨lengths, distinct, fresh⟩ := uuids_
          cases taken
          have present : ∀ id ∈ targets, (before.tables.memory.get id).isSome := by
            intro id member
            have there := List.find?_eq_none.mp all id member
            rwa [Option.isNone_iff_eq_none, ← Ne, Option.ne_none_iff_isSome] at there
          cases throws with
          | true => trivial
          | false =>
            exact stageHolds_goto (deleteRows_holds holds present lengths distinct fresh)
        · contradiction
    · contradiction
  | confirm =>
    simp only [purgeStep] at taken
    split at taken
    case h_1 targets stage =>
      rw [stage] at holds
      have sorted := confirm_sorted holds
      split at taken
      case isTrue none_ =>
        cases taken
        exact stageHolds_goto (afterHistory_holds (sorted.cleaned_of_none none_))
      · cases taken
        exact sorted.goto
    · contradiction
  | clearHistory dropped throws =>
    simp only [purgeStep] at taken
    split at taken
    case h_1 run stage =>
      rw [stage] at holds
      have sorted : Sorted before run := holds
      have cleared := sorted.deleteHistory dropped
      split at taken
      · cases taken
        exact stageHolds_goto (afterHistory_holds (cleared.cleaned fun uuid stale _ => stale))
      · cases taken
        exact cleared.goto
    · contradiction
  | confirmHistory throws =>
    simp only [purgeStep] at taken
    split at taken
    case h_1 run stage =>
      rw [stage] at holds
      cases taken
      have sorted : Sorted before run := holds
      refine stageHolds_goto (afterHistory_holds (sorted.cleaned fun uuid stale present => ?_))
      cases throws with
      | true => exact stale
      | false => exact List.mem_filter.mpr ⟨stale, present⟩
    · contradiction
  | deletePointers dropped throws =>
    simp only [purgeStep] at taken
    split at taken
    case h_1 run stage =>
      rw [stage] at holds
      cases taken
      have cleaned : Cleaned before run := holds
      exact Cleaned.goto { cleaned with }
    · contradiction
  | readPointers throws =>
    simp only [purgeStep] at taken
    split at taken
    case h_1 run stage =>
      rw [stage] at holds
      have cleaned : Cleaned before run := holds
      split at taken
      · cases taken
        exact finish_holds { cleaned with }
      split at taken
      · cases taken
        exact finish_holds cleaned
      · cases taken
        exact cleaned.goto
    · contradiction
  | recheckPointers throws =>
    simp only [purgeStep] at taken
    split at taken
    case h_1 run pointers stage =>
      rw [stage] at holds
      have cleaned : Cleaned before run := holds
      split at taken
      · cases taken
        exact finish_holds { cleaned with }
      · cases taken
        exact finish_holds { cleaned with }
    · contradiction
  | release =>
    simp only [purgeStep] at taken
    split at taken
    · cases taken
      trivial
    · contradiction
  | throw_ =>
    simp only [purgeStep] at taken
    split at taken
    all_goals first
      | contradiction
      | (obtain rfl := Option.some.inj taken; trivial)

theorem purge_holds (reached : purge.Reachable state)
    : StageHolds state state.stage := by
  have initially : ∀ start, purge.initial start → StageHolds start start.stage := by
    rintro start ⟨idle, -, -, -, -, -, uncommitted⟩
    rw [idle]
    exact uncommitted
  exact reached.invariant initially fun before label after holds taken =>
    purgeStep_holds holds taken

-- Honest answers

def PurgeAnswer.removedIds : PurgeAnswer → Option (List String)
  | .historyCleanupUnconfirmed _ _ _ removedIds | .pointerCleanupFailed _ _ removedIds
  | .unconfirmed _ removedIds | .removed _ removedIds => some removedIds
  | _ => none

def PurgeAnswer.historyCleanupError : PurgeAnswer → Bool
  | .historyCleanupUnconfirmed _ _ _ _ => true
  | _ => false

/-- What an answer says of the tables while the call still holds its locks. An early answer
comes before the delete transaction; after it `removedIds` are the targets that are gone, a
target that is gone has the history record it needs unless its write was dropped, and one
still stored has none unless the answer says so; and a success has removed every row its
locked reads named or found by their lineage search.
-/
structure AnswerHolds (state : PurgeState) (answer : PurgeAnswer) : Prop where
  early : answer.early = true → state.committed = false
  removed : ∀ removedIds, answer.removedIds = some removedIds
    → ∀ id, id ∈ removedIds ↔ id ∈ state.targets ∧ state.gone id
  recorded : answer.early = false → ∀ id row, state.stored.get id = some row → state.gone id
    → (state.recorded id ↔ keepsHistory row = true ∧ id ∉ state.droppedHistory)
  unrecorded : answer.early = false → answer.historyCleanupError = false
    → ∀ id ∈ state.targets, ¬ state.gone id → ¬ state.recorded id
  lineages : ∀ count removedIds, answer = .removed count removedIds
    → (∀ id ∈ state.named, ∃ read ∈ state.reads, read.id = id)
      ∧ ∀ read ∈ state.reads, read.Covered removedIds

/-- What a step of the call on its own does to the tables: nothing before the delete
transaction, and it takes a pointer row away only while its row is absent.
-/
structure OwnStepHolds (before after : PurgeState) : Prop where
  uncommitted : after.committed = false → after.tables = before.tables
  stays : before.committed = true → after.committed = true
  pointers : ∀ id ∈ before.tables.pointers, id ∉ after.tables.pointers → before.gone id

theorem answerOf_early
    : (state.answerOf run).early = false := by
  unfold PurgeState.answerOf
  repeat' split
  all_goals rfl

theorem answerOf_removedIds
    : (state.answerOf run).removedIds = some run.removedIds := by
  unfold PurgeState.answerOf
  repeat' split
  all_goals rfl

theorem historyLeft_of_answerOf (noError : (state.answerOf run).historyCleanupError = false)
    : run.historyLeft = [] := by
  unfold PurgeState.answerOf at noError
  split at noError
  · contradiction
  case isFalse none_ => simpa using none_

theorem stillStored_of_removed {count : Nat} {removedIds : List String}
    (removed : state.answerOf run = .removed count removedIds)
    : run.stillStored = [] ∧ removedIds = run.removedIds := by
  unfold PurgeState.answerOf at removed
  split at removed
  · contradiction
  split at removed
  · contradiction
  split at removed
  · contradiction
  case isFalse none_ =>
    exact ⟨by simpa using none_, (PurgeAnswer.removed.inj removed).2.symm⟩

theorem Cleaned.answerHolds (cleaned : Cleaned state run)
    : AnswerHolds state (state.answerOf run) := by
  refine ⟨?early, ?removed, ?recorded, ?unrecorded, ?lineages⟩
  case early =>
    rw [answerOf_early]
    exact Bool.noConfusion
  case removed =>
    intro removedIds same
    obtain rfl := Option.some.inj (answerOf_removedIds.symm.trans same)
    exact cleaned.removed
  case recorded => exact fun _ => cleaned.recorded
  case unrecorded =>
    intro _ noError id member present recorded
    obtain ⟨uuid, left, -⟩ := cleaned.left id ((cleaned.still id).mpr ⟨member, present⟩) recorded
    simp [historyLeft_of_answerOf noError] at left
  case lineages =>
    intro count removedIds success
    obtain ⟨none_, rfl⟩ := stillStored_of_removed success
    refine ⟨cleaned.named, fun read member => (cleaned.covered read member).mono ?_⟩
    intro id target
    by_contra absent
    have present : ¬ state.gone id := fun gone => absent ((cleaned.removed id).mpr ⟨target, gone⟩)
    have still := (cleaned.still id).mpr ⟨target, present⟩
    simp [none_] at still

theorem pointers_kept {dropped : List String} (held : id ∈ before.tables.pointers)
    (taken : id ∉ (before.tables.deletePointers ids dropped).pointers)
    : before.gone id := by
  by_contra present
  refine taken (List.mem_filter.mpr ⟨held, ?_⟩)
  have stored : (before.tables.memory.get id).isSome := Option.isSome_iff_ne_none.mpr present
  simp [stored]

def Quiet (before after : PurgeState) : Prop :=
  after.tables = before.tables ∧ after.committed = before.committed

theorem Quiet.own (quiet : Quiet before after)
    : OwnStepHolds before after :=
  ⟨fun _ => quiet.1, fun done => quiet.2.trans done, fun _ held taken =>
    absurd held (quiet.1 ▸ taken)⟩

theorem quiet_resolved
    : Quiet state (state.resolved ids now) := by
  unfold PurgeState.resolved
  split <;> exact ⟨rfl, rfl⟩

theorem quiet_rechecked {lockedIds : List String} {attempt : Nat}
    : Quiet state (state.rechecked ids attempt lockedIds now) := by
  unfold PurgeState.rechecked
  split
  · exact ⟨rfl, rfl⟩
  split
  · exact ⟨rfl, rfl⟩
  split <;> exact ⟨rfl, rfl⟩

theorem purgeStep_own {label : PurgeLabel} (reached : purge.Reachable before)
    (own : ∀ tables, label ≠ .others tables) (taken : purgeStep before label = some after)
    : OwnStepHolds before after := by
  have holds := purge_holds reached
  cases label with
  | others tables => exact absurd rfl (own tables)
  | resolve =>
    simp only [purgeStep] at taken
    split at taken
    · split at taken <;> cases taken
      · exact Quiet.own ⟨rfl, rfl⟩
      · exact quiet_resolved.own
    · split at taken <;> cases taken
      · exact Quiet.own ⟨rfl, rfl⟩
      · exact quiet_rechecked.own
    · contradiction
  | lock outcome =>
    simp only [purgeStep] at taken
    split at taken
    · cases outcome <;> cases taken <;> exact Quiet.own ⟨rfl, rfl⟩
    · contradiction
  | deleteRows uuids now dropped droppedHistory throws =>
    simp only [purgeStep] at taken
    split at taken
    · split at taken
      · cases taken
        exact Quiet.own ⟨rfl, rfl⟩
      rw [Option.ite_none_right_eq_some] at taken
      obtain rfl := Option.some.inj taken.2
      -- the commit leaves the pointer rows
      cases throws <;> exact ⟨Bool.noConfusion, fun _ => rfl, fun _ held taken =>
        absurd held taken⟩
    · contradiction
  | clearHistory dropped throws =>
    simp only [purgeStep] at taken
    split at taken
    case h_1 run stage =>
      rw [stage] at holds
      have sorted : Sorted before run := holds
      -- the cleanup leaves the pointer rows
      split at taken <;> cases taken <;>
        exact ⟨fun undone => absurd (undone.symm.trans sorted.committed) Bool.false_ne_true,
          fun done => done, fun _ held taken => absurd held taken⟩
    · contradiction
  | deletePointers dropped throws =>
    simp only [purgeStep] at taken
    split at taken
    case h_1 run stage =>
      rw [stage] at holds
      have cleaned : Cleaned before run := holds
      cases taken
      exact ⟨fun undone => absurd (undone.symm.trans cleaned.committed) Bool.false_ne_true,
        fun done => done, fun _ held taken => pointers_kept held taken⟩
    · contradiction
  | begin_ _ _ | confirm | confirmHistory _ | readPointers _ | recheckPointers _ | release
  | throw_ =>
    simp only [purgeStep] at taken
    repeat' split at taken
    all_goals first
      | contradiction
      | (obtain rfl := Option.some.inj taken; exact Quiet.own ⟨rfl, rfl⟩)

/-- Every answer of a purge holds of the tables it was given over, beside any writers that
take the per-id locks and whatever the commits drop; and the purge's own steps change nothing
before its delete transaction and take a pointer row only while its row is absent.
-/
theorem purge_answers_honestly
    : (∀ state answer, purge.Reachable state → state.stage = .replying answer
        → AnswerHolds state answer)
      ∧ ∀ before label after, purge.Reachable before → (∀ tables, label ≠ .others tables)
        → purgeStep before label = some after → OwnStepHolds before after := by
  refine ⟨?_, fun before label after reached own taken => purgeStep_own reached own taken⟩
  intro state answer reached stage
  have holds := purge_holds reached
  rw [stage] at holds
  rcases holds with ⟨early, uncommitted⟩ | ⟨run, rfl, cleaned⟩
  · refine ⟨fun _ => uncommitted, ?_, by simp [early], by simp [early], ?_⟩
    · intro removedIds same
      cases answer <;> simp [PurgeAnswer.early, PurgeAnswer.removedIds] at early same
    · rintro count removedIds rfl
      contradiction
  · exact cleaned.answerHolds

-- Runs

def purgeOver (memory : MemoryTable) : PurgeState where
  tables := { memory, history := [], pointers := [] }
  held := []
  historyIds := []
  stage := .idle
  stored := []
  droppedHistory := []
  named := []
  reads := []
  committed := false

theorem purgeOver_initial (memory : MemoryTable) : purge.initial (purgeOver memory) :=
  ⟨rfl, rfl, rfl, rfl, rfl, rfl, rfl⟩

def purgeOf (id : String) (reads : Nat) (droppedHistory : List String) : List PurgeLabel :=
  [.begin_ (some (.arr [.str id])) true] ++ List.replicate reads .resolve ++ [.lock .ran]
    ++ List.replicate reads .resolve
    ++ [.deleteRows ["uuid"] "2026-01-01T00:00:00.000Z" [] droppedHistory false, .confirm,
      .deletePointers [] false, .readPointers false]

def permanentRow : MemoryTable := [("m", Record.ofFields [("durability", .str "permanent")])]

def PurgeState.succeeded (state : PurgeState) (removedIds : List String) : Bool :=
  match state.stage with
  | .replying (.removed _ removed) => removed = removedIds
  | _ => false

/-- Witness: a purge of a permanent row removes it and leaves its record. -/
theorem purge_answers_honestly_permanent
    : ∃ state, purge.run (purgeOver permanentRow) (purgeOf "m" 2 []) = some state
        ∧ state.gone "m" ∧ state.recorded "m" := by
  have runs : (purge.run (purgeOver permanentRow) (purgeOf "m" 2 [])).any (fun state =>
      state.succeeded ["m"] && (state.stored.get "m").any keepsHistory
        && state.droppedHistory.isEmpty) = true := by
    decide +kernel
  obtain ⟨state, run, checks⟩ := (Option.any_eq_true _ _).mp runs
  simp only [Bool.and_eq_true, List.isEmpty_iff, Option.any_eq_true] at checks
  obtain ⟨⟨success, row, stored, keeps⟩, undropped⟩ := checks
  have reached := System.reachable_of_run (purgeOver_initial permanentRow) run
  unfold PurgeState.succeeded at success
  split at success
  case h_1 count removedIds stage =>
    have same : removedIds = ["m"] := of_decide_eq_true success
    have holds := purge_answers_honestly.1 state _ reached stage
    have gone := (holds.removed removedIds rfl "m").mp (by simp [same])
    have recorded := holds.recorded rfl "m" row stored gone.2
    exact ⟨state, run, gone.2, recorded.mpr ⟨keeps, by simp [undropped]⟩⟩
  · contradiction

/-- A version row, and the first row of its lineage, which carries no subject of its own. -/
def unenrolledLineage : MemoryTable := [
  ("v2", Record.ofFields [("skillSubjectId", .str "v1")]),
  ("v1", Record.ofFields [("tags", .arr [.str "skill"])])]

/-- A purge succeeds although the store dropped the history write of a permanent row it
removed, and although a row of the named row's lineage is still stored.
-/
theorem purge_leaves_lineage_row
    : (∃ state row, purge.Reachable state ∧ state.succeeded ["m"] = true
        ∧ state.stored.get "m" = some row ∧ keepsHistory row = true ∧ ¬ state.recorded "m")
      ∧ ∃ state first named, purge.Reachable state ∧ state.succeeded ["v2"] = true
        ∧ state.stored.get "v2" = some named ∧ state.tables.memory.get "v1" = some first
        ∧ (subjectOf "v2" named).isSome ∧ subjectOf "v1" first = subjectOf "v2" named := by
  refine ⟨?dropped, ?lineage⟩
  case dropped =>
    have runs : (purge.run (purgeOver permanentRow) (purgeOf "m" 2 ["m"])).any (fun state =>
        state.succeeded ["m"] && (state.stored.get "m").any keepsHistory
          && state.tables.history.isEmpty) = true := by
      decide +kernel
    obtain ⟨state, run, checks⟩ := (Option.any_eq_true _ _).mp runs
    simp only [Bool.and_eq_true, List.isEmpty_iff, Option.any_eq_true] at checks
    obtain ⟨⟨success, row, stored, keeps⟩, empty⟩ := checks
    refine ⟨state, row, System.reachable_of_run (purgeOver_initial permanentRow) run, success,
      stored, keeps, ?_⟩
    rintro ⟨uuid, -, present⟩
    simp [empty] at present
  case lineage =>
    have runs : (purge.run (purgeOver unenrolledLineage) (purgeOf "v2" 3 [])).any (fun state =>
        state.succeeded ["v2"] && (state.stored.get "v2").any fun named =>
          (state.tables.memory.get "v1").any fun first =>
            (subjectOf "v2" named).isSome && subjectOf "v1" first = subjectOf "v2" named)
        = true := by
      decide +kernel
    obtain ⟨state, run, checks⟩ := (Option.any_eq_true _ _).mp runs
    simp only [Bool.and_eq_true, Option.any_eq_true, decide_eq_true_eq] at checks
    obtain ⟨success, named, stored, first, left, subject, same⟩ := checks
    exact ⟨state, first, named, System.reachable_of_run (purgeOver_initial _) run, success, stored,
      left, subject, same⟩

end Flair.Purges
