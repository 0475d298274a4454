import Flair.Maintenance.MemoryMaintenance

/-! What a maintenance run touches and counts, beside any other writers: only rows eligible at
their locked read, only pointers of those rows or of its target, and each change it counts is
one it committed and then read back.
-/

namespace Flair.Maintenance

open Dynamic Transition
open Flair.Lexical (Engine)

variable {engine : Engine} {request : MaintenanceRequest}

-- What a stage knows

structure Selected (engine : Engine) (request : MaintenanceRequest) (pass : Pass)
    (record : Record)
    : Prop where
  accepted : request.refusal = none
  effective : request.dryRun = false
  eligible : passOf engine request.now record = some pass
  scope : request.inScope record = true

structure Pointed (request : MaintenanceRequest) (pointer : Record) (memoryId : String)
    : Prop where
  accepted : request.refusal = none
  effective : request.dryRun = false
  points : asString (pointer.get "memoryId") = some memoryId
  scope : request.pointerInScope pointer = true

def ReadOrphaned (log : List Event) (memoryId : String) : Prop :=
  ∃ memory, isLive memory = false ∧ .pointed memoryId memory ∈ log

def StageHolds (engine : Engine) (request : MaintenanceRequest) (log : List Event)
    : Stage → Prop
  | .started | .answered _ => True
  | .scanning => request.refusal = none
  | .selected pass record | .locked pass record | .reread pass record =>
    Selected engine request pass record
  | .confirmed pass record =>
    Selected engine request pass record
      ∧ .lockedRead (rowKey record) (some record) ∈ log
  | .committed pass record =>
    Selected engine request pass record ∧ log.head? = some (.committed pass record)
  | .sweeping => request.refusal = none ∧ request.dryRun = false
  | .pointed pointer memoryId => Pointed request pointer memoryId
  | .checking pointer memoryId _ _ | .orphanConfirmed pointer memoryId =>
    Pointed request pointer memoryId ∧ ReadOrphaned log memoryId
  | .orphanCommitted memoryId =>
    request.refusal = none ∧ request.dryRun = false
      ∧ log.head? = some (.orphanCommitted memoryId)

variable {before after : MaintenanceState} {label : MaintenanceLabel}

theorem stageHolds_next (holds : StageHolds engine request before.log before.stage)
    (taken : maintenanceStep engine request before label = some after)
    : StageHolds engine request after.log after.stage := by
  cases label with
  | _ =>
    simp only [maintenanceStep, beginStep, scanStep, endScanStep, lockStep, rereadStep,
      confirmStep, commitStep, verifyStep, nextPointerStep, readMemoryStep, checkStep,
      commitOrphanStep, verifyOrphanStep, endSweepStep, throwStep, failSearchStep] at taken
    grind [StageHolds, Selected, Pointed, ReadOrphaned, MaintenanceState.goto,
      MaintenanceState.note, MaintenanceState.count, MaintenanceState.skip,
      MaintenanceState.failItem]

-- What a step changes

theorem tables_next (own : ∀ tables, label ≠ .others tables)
    (taken : maintenanceStep engine request before label = some after)
    : after.tables = before.tables
      ∨ (∃ pass record landsRow landsPointer, before.stage = .confirmed pass record
        ∧ after.tables
          = commitPass request.now pass record landsRow landsPointer before.tables)
      ∨ ∃ pointer memoryId, before.stage = .orphanConfirmed pointer memoryId
        ∧ after.tables.memories = before.tables.memories
        ∧ ∀ key, after.tables.pointers key = before.tables.pointers key
          ∨ key = pointerKey memoryId ∧ after.tables.pointers key = none := by
  cases label with
  | others tables => exact absurd rfl (own tables)
  | commitOrphan lands =>
    simp only [maintenanceStep, commitOrphanStep] at taken
    split at taken
    · rename_i pointer memoryId stage
      cases taken
      refine Or.inr (Or.inr ⟨pointer, memoryId, stage, rfl, ?_⟩)
      intro key
      by_cases same : key = pointerKey memoryId
      · subst same
        cases lands <;> simp [MaintenanceState.goto]
      · cases lands <;> simp [MaintenanceState.goto, same]
    · cases taken
  | _ =>
    simp only [maintenanceStep, beginStep, scanStep, endScanStep, lockStep, rereadStep,
      confirmStep, commitStep, verifyStep, nextPointerStep, readMemoryStep, checkStep,
      verifyOrphanStep, endSweepStep, throwStep, failSearchStep] at taken
    grind [MaintenanceState.goto, MaintenanceState.note, MaintenanceState.count,
      MaintenanceState.skip, MaintenanceState.failItem]

theorem MaintenanceRequest.own_scope {request : MaintenanceRequest}
    (accepted : request.refusal = none) (agent : request.callerIsAdmin = false)
    : ∃ actorId, request.actorId = some actorId ∧ request.targetAgent = some actorId := by
  have target : request.targetAgent = request.actorId := by
    simp [targetAgent, agent]
  cases actor : request.actorId with
  | none => simp [refusal, agent, target, actor] at accepted
  | some actorId => exact ⟨actorId, rfl, target.trans actor⟩

def OwnRow (request : MaintenanceRequest) (record : Record) : Prop :=
  request.callerIsAdmin = false
    → ∃ actorId, request.actorId = some actorId ∧ record.get "agentId" = some (.str actorId)

def OwnPointer (request : MaintenanceRequest) (pointer : Record) : Prop :=
  request.callerIsAdmin = false
    → ∃ actorId, request.actorId = some actorId
      ∧ parseAgentIdValue (pointer.get "authorId") = some actorId

variable {pass : Pass} {record : Record}

theorem Selected.own (h : Selected engine request pass record)
    : OwnRow request record := by
  intro agent
  obtain ⟨actorId, isActor, target⟩ := request.own_scope h.accepted agent
  have scope := h.scope
  simp only [MaintenanceRequest.inScope, target, Option.all_some] at scope
  exact ⟨actorId, isActor, eq_of_strictEquals scope⟩

theorem Pointed.own {pointer : Record} {memoryId : String}
    (h : Pointed request pointer memoryId)
    : OwnPointer request pointer := by
  intro agent
  obtain ⟨actorId, isActor, target⟩ := request.own_scope h.accepted agent
  have scope := h.scope
  simp only [MaintenanceRequest.pointerInScope, target, Option.all_some,
    decide_eq_true_eq] at scope
  exact ⟨actorId, isActor, scope⟩

/-- Why a run's step changes a Memory row: what its locked read showed, and what it leaves. -/
inductive RowTouched (engine : Engine) (request : MaintenanceRequest) (log : List Event)
    (key : RowKey) (before after : Option Record)
    : Prop where
  | expired (record : Record) (read : .lockedRead key (some record) ∈ log)
      (eligible : expiredEphemeral engine request.now record = true)
      (scope : request.inScope record = true) (own : OwnRow request record)
      (deleted : after = none)
  | archived (record : Record) (read : .lockedRead key (some record) ∈ log)
      (eligible : archivable engine request.now record = true)
      (scope : request.inScope record = true) (own : OwnRow request record)
      (others : ∀ field, field ≠ "archived" → field ≠ "archivedAt"
        → (after.getD ∅).get field = (before.getD ∅).get field)

/-- Why a run's step deletes a pointer: its row was selected, or it is an orphan in scope. -/
inductive PointerTouched (engine : Engine) (request : MaintenanceRequest) (log : List Event)
    (key : RowKey)
    : Prop where
  | ofRow (pass : Pass) (record : Record) (read : .lockedRead key (some record) ∈ log)
      (eligible : passOf engine request.now record = some pass)
      (scope : request.inScope record = true) (own : OwnRow request record)
  | orphan (pointer : Record) (memoryId : String) (points : key = pointerKey memoryId)
      (named : asString (pointer.get "memoryId") = some memoryId)
      (orphaned : ReadOrphaned log memoryId) (scope : request.pointerInScope pointer = true)
      (own : OwnPointer request pointer)

theorem updateRow_archive (now : Int) (row : Option Record) {field : String}
    (notFlag : field ≠ "archived") (notStamp : field ≠ "archivedAt")
    : ((updateRow row (archivePatch now)).getD ∅).get field = (row.getD ∅).get field := by
  simp [updateRow, archivePatch, Record.ofFields, notFlag, notStamp]

variable {now : Int}

theorem passOf_expiry (h : passOf engine now record = some .expiry)
    : expiredEphemeral engine now record = true := by
  unfold passOf at h
  split at h
  · assumption
  · split at h <;> cases h

theorem passOf_archive (h : passOf engine now record = some .archive)
    : archivable engine now record = true := by
  unfold passOf at h
  split at h
  · cases h
  · split at h
    · assumption
    · cases h

variable {landsRow landsPointer : Bool} {tables : Tables} {key : RowKey}

theorem commitPass_memories
    (changed : (commitPass now pass record landsRow landsPointer tables).memories key
      ≠ tables.memories key)
    : key = rowKey record := by
  by_contra other
  apply changed
  cases landsRow <;> simp [commitPass, other]

theorem commitPass_pointers
    (changed : (commitPass now pass record landsRow landsPointer tables).pointers key
      ≠ tables.pointers key)
    : key = rowKey record
      ∧ (commitPass now pass record landsRow landsPointer tables).pointers key = none := by
  cases landsPointer with
  | false => exact absurd rfl changed
  | true =>
    by_cases same : key = rowKey record
    · exact ⟨same, by simp [commitPass, same]⟩
    · exact absurd (by simp [commitPass, same]) changed

theorem Selected.touched {log : List Event} (h : Selected engine request pass record)
    (read : .lockedRead (rowKey record) (some record) ∈ log)
    (changed : (commitPass request.now pass record landsRow landsPointer tables).memories key
      ≠ tables.memories key)
    : RowTouched engine request log key (tables.memories key)
      ((commitPass request.now pass record landsRow landsPointer tables).memories key) := by
  obtain rfl := commitPass_memories changed
  cases landsRow with
  | false => exact absurd rfl changed
  | true =>
    cases pass with
    | expiry =>
      apply RowTouched.expired record read (passOf_expiry h.eligible) h.scope h.own
      simp [commitPass]
    | archive =>
      apply RowTouched.archived record read (passOf_archive h.eligible) h.scope h.own
      intro field notFlag notStamp
      have update := updateRow_archive request.now (tables.memories (rowKey record))
        notFlag notStamp
      simpa [commitPass] using update

-- Counts

def ShownAfterCommit : List Event → Prop
  | [] => True
  | .shown pass record :: rest =>
    rest.head? = some (.committed pass record) ∧ ShownAfterCommit rest
  | .orphanGone memoryId :: rest =>
    rest.head? = some (.orphanCommitted memoryId) ∧ ShownAfterCommit rest
  | _ :: rest => ShownAfterCommit rest

@[simp] def Event.counts (dryRun : Bool) (pass : Pass) : Event → Bool
  | .selected taken _ => dryRun && taken = pass
  | .shown taken _ => !dryRun && taken = pass
  | _ => false

@[simp] def Event.removesOrphan : Event → Bool
  | .orphanGone _ => true
  | _ => false

@[simp] def Event.commits : Event → Bool
  | .committed _ _ | .orphanCommitted _ => true
  | _ => false

/-- The event of an item the run handles: a selected row, an orphan, or a pointer whose Memory
could not be read.
-/
@[simp] def Event.handles : Event → Bool
  | .selected _ _ | .pointed _ _ | .unread _ => true
  | _ => false

@[simp] def Stage.open : Stage → Nat
  | .selected _ _ | .locked _ _ | .reread _ _ | .confirmed _ _ | .committed _ _
  | .checking _ _ _ _ | .orphanConfirmed _ _ | .orphanCommitted _ => 1
  | _ => 0

structure Counted (request : MaintenanceRequest) (state : MaintenanceState) : Prop where
  shown : ShownAfterCommit state.log
  dry : request.dryRun = true → state.log.countP Event.commits = 0
  expired : state.stats.expired = state.log.countP (Event.counts request.dryRun .expiry)
  archived : state.stats.archived = state.log.countP (Event.counts request.dryRun .archive)
  orphans : state.stats.orphans = state.log.countP Event.removesOrphan
  handled : state.stats.expired + state.stats.archived + state.stats.orphans
    + state.stats.skipped + state.stats.errors + state.stage.open
    = state.log.countP Event.handles

section

variable {state : MaintenanceState} {stage : Stage} {stats : Stats}

def balance (stats : Stats) (stage : Stage) : Nat :=
  stats.expired + stats.archived + stats.orphans + stats.skipped + stats.errors + stage.open

theorem Counted.quiet (h : Counted request state) (tables : Tables)
    (expired : stats.expired = state.stats.expired)
    (archived : stats.archived = state.stats.archived)
    (orphans : stats.orphans = state.stats.orphans)
    (handled : balance stats stage = balance state.stats state.stage)
    : Counted request { tables, stage, stats, log := state.log } where
  shown := h.shown
  dry := h.dry
  expired := expired.trans h.expired
  archived := archived.trans h.archived
  orphans := orphans.trans h.orphans
  handled := handled.trans h.handled

theorem Counted.logs (h : Counted request state) (tables : Tables) (event : Event)
    (shown : ShownAfterCommit (event :: state.log))
    (dry : request.dryRun = true → event.commits = false)
    (expired : stats.expired
      = state.stats.expired + (event.counts request.dryRun .expiry).toNat)
    (archived : stats.archived
      = state.stats.archived + (event.counts request.dryRun .archive).toNat)
    (orphans : stats.orphans = state.stats.orphans + event.removesOrphan.toNat)
    (handled : balance stats stage = balance state.stats state.stage + event.handles.toNat)
    : Counted request { tables, stage, stats, log := event :: state.log } where
  shown := shown
  dry := by
    intro isDry
    rw [List.countP_cons, h.dry isDry, dry isDry]
    rfl
  expired := by
    rw [List.countP_cons, ← h.expired, expired]
    cases event.counts request.dryRun .expiry <;> rfl
  archived := by
    rw [List.countP_cons, ← h.archived, archived]
    cases event.counts request.dryRun .archive <;> rfl
  orphans := by
    rw [List.countP_cons, ← h.orphans, orphans]
    cases event.removesOrphan <;> rfl
  handled := by
    rw [List.countP_cons, ← h.handled]
    apply handled.trans
    cases event.handles <;> rfl

theorem Counted.goto (h : Counted request state) (level : stage.open = state.stage.open)
    : Counted request (state.goto stage) :=
  h.quiet state.tables rfl rfl rfl (by rw [balance, balance, level])

theorem Counted.skip (h : Counted request state) (item : state.stage.open = 1)
    (ended : stage.open = 0)
    : Counted request (state.skip stage) :=
  h.quiet state.tables rfl rfl rfl (by
    simp only [balance, item, ended, MaintenanceState.count]
    omega)

theorem Counted.failItem (h : Counted request state) (item : state.stage.open = 1)
    (ended : stage.open = 0)
    : Counted request (state.failItem stage) :=
  h.quiet state.tables rfl rfl rfl (by
    simp only [balance, item, ended, MaintenanceState.count]
    omega)

theorem Counted.total (h : Counted request state)
    : Counted request
        (state.count fun stats => { stats with total := stats.total + 1 }) :=
  h.quiet state.tables rfl rfl rfl rfl

end

theorem Counted.scan (h : Counted request before)
    (taken : scanStep engine request before record = some after)
    : Counted request after := by
  unfold scanStep at taken
  split at taken
  · rename_i scanning
    split at taken
    · simp only at taken
      split at taken
      · cases taken
        exact h.total
      rename_i pass _
      split at taken
      · rename_i dry
        cases taken
        apply h.total.logs before.tables (.selected pass record) h.shown
        all_goals cases pass <;> simp [dry, MaintenanceState.count, Pass.count, balance]
        all_goals omega
      · rename_i live
        cases taken
        apply h.total.logs before.tables (.selected pass record) h.shown
        all_goals simp [live, scanning, MaintenanceState.count, balance]
    · cases taken
      exact h
  · cases taken

theorem Counted.verify {readable : Bool} (h : Counted request before)
    (holds : StageHolds engine request before.log before.stage)
    (taken : verifyStep request before readable = some after)
    : Counted request after := by
  unfold verifyStep at taken
  split at taken
  · rename_i pass record committed
    rw [committed] at holds
    have item : before.stage.open = 1 := by rw [committed]; rfl
    split at taken
    · split at taken
      · cases taken
        apply h.logs before.tables (.shown pass record) ⟨holds.2, h.shown⟩
        all_goals cases pass <;> simp [holds.1.effective, committed, MaintenanceState.count,
          Pass.count, balance]
        all_goals omega
      · cases taken
        exact h.skip item rfl
    · cases taken
      exact h.failItem item rfl
  · cases taken

theorem Counted.verifyOrphan {readable : Bool} (h : Counted request before)
    (holds : StageHolds engine request before.log before.stage)
    (taken : verifyOrphanStep before readable = some after)
    : Counted request after := by
  unfold verifyOrphanStep at taken
  split at taken
  · rename_i memoryId committed
    rw [committed] at holds
    have item : before.stage.open = 1 := by rw [committed]; rfl
    split at taken
    · split at taken
      · cases taken
        apply h.logs before.tables (.orphanGone memoryId) ⟨holds.2.2, h.shown⟩
        all_goals simp [committed, MaintenanceState.count, balance]
        all_goals omega
      · cases taken
        exact h.skip item rfl
    · cases taken
      exact h.failItem item rfl
  · cases taken

theorem Counted.throws (h : Counted request before) (taken : throwStep before = some after)
    : Counted request after := by
  unfold throwStep at taken
  split at taken
  case h_5 _ memoryId pointed =>
    cases taken
    apply h.logs before.tables (.unread memoryId) h.shown
    all_goals simp [pointed, MaintenanceState.count, balance]
    all_goals omega
  case h_8 => cases taken
  all_goals
    rename_i stage
    cases taken
    exact h.failItem (by rw [stage]; rfl) rfl

theorem Counted.next (h : Counted request before)
    (holds : StageHolds engine request before.log before.stage)
    (taken : maintenanceStep engine request before label = some after)
    : Counted request after := by
  cases label with
  | others tables =>
    cases taken
    exact h.quiet tables rfl rfl rfl rfl
  | scan record => exact h.scan taken
  | verify readable => exact h.verify holds taken
  | verifyOrphan readable => exact h.verifyOrphan holds taken
  | throw => exact h.throws taken
  | confirm =>
    simp only [maintenanceStep, confirmStep] at taken
    split at taken
    · rename_i pass record reread
      have read : Counted request
          (before.note (.lockedRead (rowKey record) (before.tables.memories (rowKey record)))) :=
        h.logs before.tables _ h.shown (fun _ => rfl) rfl rfl rfl rfl
      split at taken
      · cases taken
        exact read.goto (by simp [reread])
      · cases taken
        exact read.skip (by simp [reread]) rfl
    · cases taken
  | commit landsRow landsPointer =>
    simp only [maintenanceStep, commitStep] at taken
    split at taken
    · rename_i pass record confirmed
      rw [confirmed] at holds
      cases taken
      apply h.logs _ (.committed pass record) h.shown
      all_goals simp [holds.1.effective, confirmed, balance]
    · cases taken
  | commitOrphan lands =>
    simp only [maintenanceStep, commitOrphanStep] at taken
    split at taken
    · rename_i pointer memoryId confirmed
      rw [confirmed] at holds
      cases taken
      apply h.logs _ (.orphanCommitted memoryId) h.shown
      all_goals simp [holds.1.effective, confirmed, balance]
    · cases taken
  | readMemory =>
    simp only [maintenanceStep, readMemoryStep] at taken
    split at taken
    · rename_i pointer memoryId pointed
      split at taken
      · cases taken
        exact h.goto (by rw [pointed]; rfl)
      cases taken
      apply h.logs before.tables
        (.pointed memoryId (before.tables.memories (pointerKey memoryId))) h.shown
        (fun _ => rfl) rfl rfl rfl
      simp [pointed, balance]
    · cases taken
  | _ =>
    -- The other steps log nothing: they move on, or end their item as skipped.
    simp only [maintenanceStep, beginStep, endScanStep, lockStep, rereadStep,
      nextPointerStep, checkStep, endSweepStep, failSearchStep] at taken
    repeat' split at taken
    all_goals cases taken
    all_goals first
      | exact h
      | exact h.goto (by simp only [*, Stage.open])
      | exact h.skip (by simp only [*, Stage.open]) rfl

-- Whole runs

/-- What a step of the run changes from a state: nothing in a dry run, else only touched rows
and pointers.
-/
structure Touches (engine : Engine) (request : MaintenanceRequest)
    (before after : MaintenanceState)
    : Prop where
  dry : request.dryRun = true → after.tables = before.tables
  memories : ∀ key, after.tables.memories key ≠ before.tables.memories key
    → RowTouched engine request before.log key (before.tables.memories key)
      (after.tables.memories key)
  pointers : ∀ key, after.tables.pointers key ≠ before.tables.pointers key
    → after.tables.pointers key = none ∧ PointerTouched engine request before.log key

theorem touches_next (holds : StageHolds engine request before.log before.stage)
    (own : ∀ tables, label ≠ .others tables)
    (taken : maintenanceStep engine request before label = some after)
    : Touches engine request before after := by
  rcases tables_next own taken with unchanged | ⟨pass, record, landsRow, landsPointer, stage,
    committed⟩ | ⟨pointer, memoryId, stage, memories, pointers⟩
  · refine ⟨fun _ => unchanged, ?_, ?_⟩
    · intro key changed
      exact absurd (by rw [unchanged]) changed
    · intro key changed
      exact absurd (by rw [unchanged]) changed
  · rw [stage] at holds
    obtain ⟨selected, read⟩ := holds
    refine ⟨?_, ?_, ?_⟩
    · intro dry
      rw [selected.effective] at dry
      cases dry
    · intro key changed
      rw [committed] at changed ⊢
      exact selected.touched read changed
    · intro key changed
      rw [committed] at changed ⊢
      obtain ⟨rfl, deleted⟩ := commitPass_pointers changed
      exact ⟨deleted, .ofRow pass record read selected.eligible selected.scope selected.own⟩
  · rw [stage] at holds
    obtain ⟨pointed, orphaned⟩ := holds
    refine ⟨?_, ?_, ?_⟩
    · intro dry
      rw [pointed.effective] at dry
      cases dry
    · intro key changed
      exact absurd (by rw [memories]) changed
    · intro key changed
      rcases pointers key with same | ⟨points, deleted⟩
      · exact absurd same changed
      · exact ⟨deleted, .orphan pointer memoryId points pointed.points orphaned pointed.scope
          pointed.own⟩

/-- Over any tables and other writers, a run's own steps change only rows that its locked read
showed eligible and in scope, and delete only the pointers of such rows or orphans of its
target; a caller that is no admin changes only its own rows and deletes only pointers of its
own rows or that it wrote. Each change counted is a committed one that a later read showed,
a dry run counts what it selects and changes nothing, and every item is counted once.
-/
theorem maintenance_touches_only_its_rows (engine : Engine) (request : MaintenanceRequest)
    (state : MaintenanceState)
    (reachable : (memoryMaintenance engine request).Reachable state)
    : (∀ label after, (∀ tables, label ≠ .others tables)
        → maintenanceStep engine request state label = some after
        → Touches engine request state after)
      ∧ Counted request state := by
  have both : StageHolds engine request state.log state.stage ∧ Counted request state := by
    apply reachable.invariant
    · rintro start ⟨stage, stats, log⟩
      rw [stage, log]
      exact ⟨trivial, by constructor <;> simp [stage, stats, log, ShownAfterCommit]⟩
    · rintro before label after ⟨holds, counted⟩ taken
      exact ⟨stageHolds_next holds taken, counted.next holds taken⟩
  exact ⟨fun label after own taken => touches_next both.1 own taken, both.2⟩

def plainDates : Engine where
  dateParse _ := none
  dateTime
    | some (.num amount) => some amount.num
    | _ => none
  string _ := ""

def agentRequest (dryRun : Bool) : MaintenanceRequest where
  actorId := some "ana"
  callerIsAdmin := false
  body := { agentIdOwn := false, agentId := none, dryRun := some (.bool dryRun) }
  now := 10

def expiredRow : Record :=
  .ofFields [("id", .str "m1"), ("agentId", .str "ana"), ("durability", .str "ephemeral"),
    ("expiresAt", .num 1)]

def othersRow : Record :=
  .ofFields [("id", .str "m2"), ("agentId", .str "bo"), ("archived", .bool true)]

def callersPointer : Record := .ofFields [("memoryId", .str "m2"), ("authorId", .str "ana")]

def someRows : MaintenanceState where
  tables := {
    memories := fun key =>
      if key = pointerKey "m1" then some expiredRow
      else if key = pointerKey "m2" then some othersRow else none
    pointers := fun key => if key = pointerKey "m2" then some callersPointer else none }
  stage := .started
  stats := {}
  log := []

def expiryLabels : List MaintenanceLabel :=
  [.begin, .scan expiredRow, .lock true, .reread, .confirm, .commit true true]

def sweepLabels : List MaintenanceLabel :=
  [.begin, .endScan true, .nextPointer callersPointer, .readMemory, .check, .check, .check,
    .check]

/-- Witness: an expired row deleted, then read as gone. -/
theorem expired_row_counted_once
    : ∃ state, (memoryMaintenance plainDates (agentRequest false)).Reachable state
      ∧ state.stats.expired = 1 ∧ state.tables.memories (pointerKey "m1") = none
      ∧ Counted (agentRequest false) state := by
  obtain ⟨state, run, expired, gone⟩ : ∃ state,
      (memoryMaintenance plainDates (agentRequest false)).run someRows
          (expiryLabels ++ [.verify true]) = some state
        ∧ state.stats.expired = 1 ∧ state.tables.memories (pointerKey "m1") = none := by
    exact ⟨_, rfl, rfl, rfl⟩
  have reachable : (memoryMaintenance plainDates (agentRequest false)).Reachable state :=
    System.reachable_of_run ⟨rfl, rfl, rfl⟩ run
  exact ⟨state, reachable, expired, gone,
    (maintenance_touches_only_its_rows plainDates (agentRequest false) state reachable).2⟩

/-- A dry run counts rows it does not change; a run whose last read fails does not count the
row it deleted; an agent's run deletes the pointer it wrote to another agent's archived row.
-/
theorem counts_differ_from_commits
    : (∃ state, (memoryMaintenance plainDates (agentRequest true)).Reachable state
        ∧ state.stats.expired = 1 ∧ state.log.countP Event.commits = 0)
      ∧ (∃ state, (memoryMaintenance plainDates (agentRequest false)).Reachable state
        ∧ state.stats.expired = 0 ∧ .committed .expiry expiredRow ∈ state.log
        ∧ state.tables.memories (pointerKey "m1") = none)
      ∧ ∃ before after row, (memoryMaintenance plainDates (agentRequest false)).Reachable before
        ∧ maintenanceStep plainDates (agentRequest false) before (.commitOrphan true) = some after
        ∧ before.tables.memories (pointerKey "m2") = some row
        ∧ row.get "agentId" = some (.str "bo")
        ∧ before.tables.pointers (pointerKey "m2") = some callersPointer
        ∧ after.tables.pointers (pointerKey "m2") = none := by
  refine ⟨?_, ?_, ?_⟩
  · obtain ⟨state, run, counts⟩ : ∃ state,
        (memoryMaintenance plainDates (agentRequest true)).run someRows
            [.begin, .scan expiredRow] = some state
          ∧ state.stats.expired = 1 ∧ state.log.countP Event.commits = 0 := by
      exact ⟨_, rfl, rfl, rfl⟩
    exact ⟨state, System.reachable_of_run ⟨rfl, rfl, rfl⟩ run, counts⟩
  · obtain ⟨state, run, counts⟩ : ∃ state,
        (memoryMaintenance plainDates (agentRequest false)).run someRows
            (expiryLabels ++ [.verify false]) = some state
          ∧ state.stats.expired = 0 ∧ .committed .expiry expiredRow ∈ state.log
          ∧ state.tables.memories (pointerKey "m1") = none := by
      exact ⟨_, rfl, rfl, List.mem_cons_self, rfl⟩
    exact ⟨state, System.reachable_of_run ⟨rfl, rfl, rfl⟩ run, counts⟩
  · obtain ⟨before, run, after, taken, facts⟩ : ∃ before,
        (memoryMaintenance plainDates (agentRequest false)).run someRows sweepLabels
          = some before
          ∧ ∃ after, maintenanceStep plainDates (agentRequest false) before (.commitOrphan true)
            = some after
          ∧ before.tables.memories (pointerKey "m2") = some othersRow
          ∧ before.tables.pointers (pointerKey "m2") = some callersPointer
          ∧ after.tables.pointers (pointerKey "m2") = none := by
      exact ⟨_, rfl, _, rfl, rfl, rfl, rfl⟩
    exact ⟨before, after, othersRow, System.reachable_of_run ⟨rfl, rfl, rfl⟩ run, taken,
      facts.1, rfl, facts.2⟩

end Flair.Maintenance
