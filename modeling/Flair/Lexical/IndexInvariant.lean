import Flair.Lexical.IndexCurrency

/-! The index follows the table in every run whose late hooks fit: what holds of the
service, its builds and the feed in every state, and the index once nothing is under way.
-/

namespace Flair.Lexical

open Dynamic Transition ChangeLog

-- The invariant

/-- What a build that owns the index has put into it. Before its scan begins the scan will
read the table's current rows.
-/
def BuildSound (table : MemoryTable) (queue : List FeedEvent) (hooks : List HookCall)
    (index : IndexContents) (buffered : List PendingEvent) : BuildStage → Prop
  | .feeding _ | .counting | .yielding =>
    index = .clear ∧ FollowsFrom table queue hooks table.target buffered
  | .admitting view visited =>
    (∀ id, id ∉ visited → index id = none)
    ∧ FollowsFrom table queue hooks
        (fun id => if id ∈ visited then index id else view.target id) buffered
  | .idle | .returned => False

def IndexingState.stage (state : IndexingState) : BuildStage :=
  state.builds state.service.buildSerial

structure Follows (state : IndexingState) : Prop where
  current : FeedCurrent state.table state.queue
  quiet : state.subscribed = false → state.queue = []
  opening : state.subscribed = false → state.service.state = .disabled
    ∨ (state.service.state = .empty ∧ state.service.feedStarted = false)
    ∨ (state.service.state = .building ∧ state.stage = .feeding true)
  promised : state.service.state = .building
    → state.service.buildPromise = some state.service.buildSerial
  building : state.service.state = .building → ∃ buffered,
    state.service.pending = some buffered
    ∧ BuildSound state.table state.queue state.hooks state.service.index buffered state.stage
  serving : state.service.state = .ready
    → FollowsFrom state.table state.queue state.hooks state.service.index []

variable {state next : IndexingState}

theorem follows_initially (start : IndexingStart state) : Follows state := by
  obtain ⟨table, queue, subscribed, hooks, service, builds⟩ := state
  obtain ⟨unsubscribed, quiet, unhooked, initial, unbuilt⟩ := start
  dsimp only at *
  subst unsubscribed quiet unhooked initial
  refine
    ⟨feedCurrent_nil table, fun _ => rfl, fun _ => Or.inr (Or.inl ⟨rfl, rfl⟩), ?_, ?_, ?_⟩
  all_goals
    intro started
    cases started

theorem Follows.idle (current : FeedCurrent state.table state.queue)
    (quiet : state.subscribed = false → state.queue = [])
    (stopped : state.service.state = .disabled
      ∨ (state.service.state = .empty ∧ state.subscribed = true))
    : Follows state := by
  refine ⟨current, quiet, ?_, ?_, ?_, ?_⟩
  · intro unsubscribed
    rcases stopped with disabled | ⟨-, subscribed⟩
    · exact Or.inl disabled
    · rw [unsubscribed] at subscribed
      cases subscribed
  all_goals
    intro busy
    rcases stopped with disabled | ⟨empty, -⟩
    · rw [busy] at disabled
      cases disabled
    · rw [busy] at empty
      cases empty

theorem Follows.disable (h : Follows state) {builds : Nat → BuildStage}
    : Follows { state with service := state.service.disable, builds := builds } :=
  Follows.idle h.current h.quiet (Or.inl rfl)

@[simp] theorem settled_state (service : IndexService) (serial : Nat)
    : (service.settled serial).state = service.state := by
  unfold IndexService.settled
  split <;> rfl

@[simp] theorem settled_index (service : IndexService) (serial : Nat)
    : (service.settled serial).index = service.index := by
  unfold IndexService.settled
  split <;> rfl

@[simp] theorem settled_pending (service : IndexService) (serial : Nat)
    : (service.settled serial).pending = service.pending := by
  unfold IndexService.settled
  split <;> rfl

@[simp] theorem settled_feedStarted (service : IndexService) (serial : Nat)
    : (service.settled serial).feedStarted = service.feedStarted := by
  unfold IndexService.settled
  split <;> rfl

@[simp] theorem settled_buildSerial (service : IndexService) (serial : Nat)
    : (service.settled serial).buildSerial = service.buildSerial := by
  unfold IndexService.settled
  split <;> rfl

variable {serial : Nat}

theorem live_iff {service : IndexService}
    : service.live serial = true
      ↔ service.state = .building ∧ serial = service.buildSerial := by
  simp [IndexService.live]

theorem Follows.returns (h : Follows state) (aborted : state.service.live serial ≠ true)
    : Follows (state.endBuild serial state.service) := by
  have other : state.service.state = .building → state.service.buildSerial ≠ serial := by
    intro building same
    exact aborted (live_iff.mpr ⟨building, same.symm⟩)
  have stage : state.service.state = .building
      → (state.endBuild serial state.service).stage = state.stage := by
    intro building
    simp [IndexingState.stage, IndexingState.endBuild, IndexingState.goto, other building]
  refine ⟨h.current, h.quiet, ?_, ?_, ?_, ?_⟩
  · intro unsubscribed
    rcases h.opening unsubscribed with disabled | ⟨empty, unopened⟩ | ⟨building, waits⟩
    · exact Or.inl ((settled_state _ _).trans disabled)
    · right
      left
      simpa [IndexingState.endBuild] using And.intro empty unopened
    · right
      right
      exact ⟨(settled_state _ _).trans building, (stage building).trans waits⟩
  · intro building
    replace building := (settled_state _ _).symm.trans building
    have promise := h.promised building
    have apart := other building
    simp [IndexingState.endBuild, IndexService.settled, promise, apart]
  · intro building
    replace building := (settled_state _ _).symm.trans building
    rw [stage building]
    simpa [IndexingState.endBuild, IndexingState.goto] using h.building building
  · intro ready
    replace ready := (settled_state _ _).symm.trans ready
    simpa [IndexingState.endBuild, IndexingState.goto] using h.serving ready

-- Steps of the table, the feed and the hooks

def IndexingState.buffered (state : IndexingState) : List PendingEvent :=
  state.service.pending.getD []

variable {table : MemoryTable} {queue : List FeedEvent} {hooks : List HookCall}

theorem BuildSound.moves {after : MemoryTable} {more : List FeedEvent} {left : List HookCall}
    {index : IndexContents} {buffered now : List PendingEvent} {stage : BuildStage}
    (h : BuildSound table queue hooks index buffered stage)
    (follows : ∀ before contents, (contents = before
        ∨ (contents = after.target ∧ before = table.target))
      → FollowsFrom table queue hooks before buffered
      → FollowsFrom after more left contents now)
    : BuildSound after more left index now stage := by
  cases stage with
  | idle | returned => exact h
  | feeding _ | counting | yielding => exact ⟨h.1, follows _ _ (Or.inr ⟨rfl, rfl⟩) h.2⟩
  | admitting view visited => exact ⟨h.1, follows _ _ (Or.inl rfl) h.2⟩

theorem BuildSound.joins {more : List FeedEvent} {left : List HookCall} {index : IndexContents}
    {buffered now : List PendingEvent} {stage : BuildStage}
    (h : BuildSound table queue hooks index buffered stage)
    (follows : ∀ contents, FollowsFrom table queue hooks contents buffered
      → FollowsFrom table more left contents now)
    : BuildSound table more left index now stage := by
  refine h.moves ?_
  intro before contents same settled
  rcases same with rfl | ⟨rfl, rfl⟩ <;> exact follows _ settled

theorem Follows.seen (h : Follows state) {event : FeedEvent} (subscribed : state.subscribed = true)
    (current : FeedCurrent table (state.queue ++ [event]))
    (follows : ∀ buffered contents now, (now = contents
        ∨ (now = table.target ∧ contents = state.table.target))
      → FollowsFrom state.table state.queue state.hooks contents buffered
      → FollowsFrom table (state.queue ++ [event]) hooks now buffered)
    : Follows { state with table := table, queue := state.queue ++ [event], hooks := hooks } := by
  refine ⟨current, ?_, ?_, h.promised, ?_, ?_⟩
  · intro unsubscribed
    rw [subscribed] at unsubscribed
    cases unsubscribed
  · intro unsubscribed
    rw [subscribed] at unsubscribed
    cases unsubscribed
  · intro building
    obtain ⟨buffered, held, sound⟩ := h.building building
    refine ⟨buffered, held, ?_⟩
    exact sound.moves fun contents now same settled => follows _ _ _ same settled
  · intro ready
    exact follows _ _ _ (Or.inl rfl) (h.serving ready)

/-- A change of the table before the feed has been subscribed: only a build that waits for
the feed can be under way, and its scan has yet to begin.
-/
theorem Follows.unseen (h : Follows state) (unsubscribed : state.subscribed = false)
    (follows : FollowsFrom state.table [] state.hooks state.table.target state.buffered
      → FollowsFrom table [] hooks table.target state.buffered)
    : Follows { state with table := table, hooks := hooks } := by
  have quiet := h.quiet unsubscribed
  refine ⟨?_, h.quiet, h.opening, h.promised, ?_, ?_⟩
  · dsimp only
    rw [quiet]
    exact feedCurrent_nil table
  · intro building
    obtain ⟨buffered, held, sound⟩ := h.building building
    refine ⟨buffered, held, ?_⟩
    have waits : state.stage = .feeding true := by
      rcases h.opening unsubscribed with disabled | ⟨empty, -⟩ | ⟨-, waits⟩
      · cases building.symm.trans disabled
      · cases building.symm.trans empty
      · exact waits
    change BuildSound table state.queue hooks _ _ state.stage
    rw [waits, quiet] at sound ⊢
    have same : state.buffered = buffered := by simp [IndexingState.buffered, held]
    rw [same] at follows
    exact ⟨sound.1, follows sound.2⟩
  · intro ready
    rcases h.opening unsubscribed with disabled | ⟨empty, -⟩ | ⟨building, -⟩
    · cases ready.symm.trans disabled
    · cases ready.symm.trans empty
    · cases ready.symm.trans building

theorem Follows.commit (h : Follows state) (id : MemoryId) (row : Option Record)
    (carried hooked : Bool)
    (fits : state.subscribed = true ∨ hooked = true
      ∨ ¬ Touched PendingEvent.effect id.val state.buffered)
    : Follows (state.commit id row carried hooked) := by
  have kept : ∀ call ∈ state.hooks, call
      ∈ (if hooked then state.hooks ++ [IndexingState.commitHook id row] else state.hooks) := by
    intro call member
    split
    · exact List.mem_append_left _ member
    · exact member
  cases subscribed : state.subscribed with
  | true =>
    have emitted : state.emit (IndexingState.commitEvent id row carried)
        = state.queue ++ [IndexingState.commitEvent id row carried] := by
      simp [IndexingState.emit, subscribed]
    rw [IndexingState.commit, emitted]
    refine h.seen subscribed (h.current.commit id row carried) ?_
    intro buffered contents now same follows
    refine follows.commit id row carried ?_ kept
    intro other apart
    rcases same with rfl | ⟨rfl, rfl⟩
    · rfl
    · exact state.table.write_target_ne id row apart
  | false =>
    have emitted : state.emit (IndexingState.commitEvent id row carried) = state.queue := by
      simp [IndexingState.emit, subscribed]
    rw [IndexingState.commit, emitted]
    refine h.unseen subscribed ?_
    intro follows
    refine follows.unseen id row kept ?_
    rcases fits with seen | hook | untouched
    · rw [subscribed] at seen
      cases seen
    · left
      refine ⟨IndexingState.commitHook id row, ?_, effect_commitHook state.table id row⟩
      simp [hook]
    · exact Or.inr untouched

/-- Rows replaced by a resync before the feed is subscribed, by induction on the rows. -/
theorem FollowsFrom.resync {buffered : List PendingEvent} (rows : List (MemoryId × Option Record))
    (h : FollowsFrom table [] hooks table.target buffered)
    (untouched : ∀ change ∈ rows, ¬ Touched PendingEvent.effect change.1.val buffered)
    : FollowsFrom (rows.foldl (fun table change => table.write change.1 change.2) table) []
        hooks (rows.foldl (fun table change => table.write change.1 change.2) table).target
        buffered := by
  induction rows generalizing table with
  | nil => exact h
  | cons change rest ih =>
    apply ih
    · exact h.unseen change.1 change.2 (fun _ member => member)
        (Or.inr (untouched change List.mem_cons_self))
    · exact fun other member => untouched other (List.mem_cons_of_mem _ member)

theorem Follows.resync (h : Follows state) (rows : List (MemoryId × Option Record))
    (type : String)
    (fits : state.subscribed = true
      ∨ ∀ change ∈ rows, ¬ Touched PendingEvent.effect change.1.val state.buffered)
    : Follows (state.resync rows type) := by
  have marker : ∀ usable, (FeedEvent.other type).usable ≠ some usable := by
    intro usable read
    cases read
  cases subscribed : state.subscribed with
  | true =>
    have emitted : state.emit (.other type) = state.queue ++ [.other type] := by
      simp [IndexingState.emit, subscribed]
    rw [IndexingState.resync, emitted]
    exact h.seen subscribed (.marked marker) fun _ _ _ _ _ => .marked marker
  | false =>
    have emitted : state.emit (.other type) = state.queue := by
      simp [IndexingState.emit, subscribed]
    rw [IndexingState.resync, emitted]
    refine h.unseen subscribed fun follows => follows.resync rows ?_
    rcases fits with seen | untouched
    · rw [subscribed] at seen
      cases seen
    · exact untouched

theorem Follows.subscribe (h : Follows state) (taken : state.subscribe = some next)
    : Follows next := by
  simp only [IndexingState.subscribe, Option.ite_none_right_eq_some, Option.some.injEq] at taken
  obtain ⟨-, rfl⟩ := taken
  refine ⟨h.current, ?_, ?_, h.promised, h.building, h.serving⟩
  all_goals
    intro unsubscribed
    cases unsubscribed

/-- An event that reaches the service while a build holds a buffer, or while the index is
served, joins what has been applied.
-/
theorem Follows.recorded (h : Follows state) {event : PendingEvent}
    (current : FeedCurrent state.table queue) (quiet : state.subscribed = false → queue = [])
    (follows : ∀ buffered contents,
      FollowsFrom state.table state.queue state.hooks contents buffered
      → FollowsFrom state.table queue hooks contents (buffered ++ [event]))
    : Follows {
        state with queue := queue, hooks := hooks, service := state.service.record event } := by
  cases serving : state.service.state with
  | disabled =>
    have kept : state.service.record event = state.service := by
      simp [IndexService.record, serving]
    rw [kept]
    exact Follows.idle current quiet (Or.inl serving)
  | empty =>
    have kept : state.service.record event = state.service := by
      simp [IndexService.record, serving]
    rw [kept]
    refine ⟨current, quiet, h.opening, h.promised, ?_, ?_⟩
    all_goals
      intro busy
      cases serving.symm.trans busy
  | ready =>
    have applied : state.service.record event
        = { state.service with index := apply state.service.index event } := by
      simp [IndexService.record, serving]
    rw [applied]
    refine ⟨current, quiet, h.opening, h.promised, ?_, ?_⟩
    · intro building
      cases serving.symm.trans building
    · intro _
      exact followsFrom_apply.mpr (follows _ _ (h.serving serving))
  | building =>
    obtain ⟨buffered, held, sound⟩ := h.building serving
    have pushed : state.service.record event
        = { state.service with pending := some (buffered ++ [event]) } := by
      simp [IndexService.record, serving, held]
    rw [pushed]
    refine ⟨current, quiet, h.opening, h.promised, ?_, ?_⟩
    · intro _
      refine ⟨buffered ++ [event], rfl, ?_⟩
      exact sound.joins (follows buffered)
    · intro ready
      cases serving.symm.trans ready

theorem Follows.deliver (h : Follows state) (taken : state.deliver = some next)
    : Follows next := by
  unfold IndexingState.deliver at taken
  split at taken
  · cases taken
  rename_i event rest queued
  cases taken
  have subscribed : state.subscribed = true := by
    cases subscribed : state.subscribed with
    | true => rfl
    | false =>
      rw [h.quiet subscribed] at queued
      cases queued
  have current : FeedCurrent state.table rest := by
    have before := h.current
    rw [queued] at before
    exact before.of_deliver
  have quiet : state.subscribed = false → rest = [] := by
    intro unsubscribed
    cases subscribed.symm.trans unsubscribed
  unfold consume
  split
  · rename_i usable read
    refine h.recorded current quiet ?_
    intro buffered contents follows
    rw [queued] at follows
    exact follows.delivered read
  · refine Follows.idle current quiet ?_
    unfold IndexService.markBm25IndexStale
    split
    · rename_i disabled
      exact Or.inl disabled
    · exact Or.inr ⟨rfl, subscribed⟩

theorem Follows.callHook (h : Follows state) {position : Nat}
    (taken : state.callHook position = some next)
    (fits : ∀ call late, state.hooks[position]? = some call → call.event = some late
      → Fits state.table state.queue (state.hooks.eraseIdx position) late)
    : Follows next := by
  obtain ⟨call, called, rfl⟩ := Option.map_eq_some_iff.mp taken
  unfold noteMemory
  split
  · rename_i late read
    refine h.recorded h.current h.quiet ?_
    intro buffered contents follows
    exact follows.called h.current called read (fits call late called read)
  · rename_i silent
    refine ⟨h.current, h.quiet, h.opening, h.promised, ?_, ?_⟩
    · intro building
      obtain ⟨buffered, held, sound⟩ := h.building building
      refine ⟨buffered, held, ?_⟩
      exact sound.joins fun contents settled => settled.unheard called silent
    · intro ready
      exact (h.serving ready).unheard called silent

-- Steps of the builds

theorem Follows.query (h : Follows state) : Follows state.query := by
  unfold IndexingState.query
  split
  · exact h
  rename_i free
  simp only [not_or, not_not] at free
  obtain ⟨able, unready, unpromised⟩ := free
  refine ⟨h.current, h.quiet, ?_, fun _ => rfl, ?_, ?_⟩
  · intro unsubscribed
    rcases h.opening unsubscribed with disabled | ⟨-, unopened⟩ | ⟨building, -⟩
    · exact absurd disabled able
    · right
      right
      simp [IndexingState.stage, IndexService.startBuild, unopened]
    · cases unpromised.symm.trans (h.promised building)
  · intro _
    refine ⟨[], rfl, ?_⟩
    simp only [IndexingState.stage, IndexService.startBuild, Function.update_self]
    exact ⟨rfl, fun clean id => Or.inl (h.current _ List.suffix_rfl clean id)⟩
  · intro ready
    cases ready

theorem Follows.continues (h : Follows state) {stage : BuildStage}
    (subscribed : state.service.live serial = true → state.subscribed = true)
    (sound : ∀ buffered, state.service.live serial = true
      → state.service.pending = some buffered
      → BuildSound state.table state.queue state.hooks state.service.index buffered stage)
    : Follows (state.continueBuild serial stage) := by
  unfold IndexingState.continueBuild
  split
  · rename_i live
    obtain ⟨building, rfl⟩ := live_iff.mp live
    refine ⟨h.current, h.quiet, ?_, h.promised, ?_, h.serving⟩
    · intro unsubscribed
      cases (subscribed live).symm.trans unsubscribed
    intro _
    obtain ⟨buffered, held, -⟩ := h.building building
    refine ⟨buffered, held, ?_⟩
    simp only [IndexingState.stage, IndexingState.goto, Function.update_self]
    exact sound buffered live held
  · rename_i aborted
    exact h.returns aborted

theorem Follows.subscribed_of_past (h : Follows state) (past : state.builds serial ≠ .feeding true)
    (live : state.service.live serial = true)
    : state.subscribed = true := by
  obtain ⟨building, rfl⟩ := live_iff.mp live
  cases subscribed : state.subscribed with
  | true => rfl
  | false =>
    rcases h.opening subscribed with disabled | ⟨empty, -⟩ | ⟨-, waits⟩
    · cases building.symm.trans disabled
    · cases building.symm.trans empty
    · exact absurd waits past

theorem Follows.sound_of_live (h : Follows state) {buffered : List PendingEvent}
    (live : state.service.live serial = true) (held : state.service.pending = some buffered)
    : BuildSound state.table state.queue state.hooks state.service.index buffered
        (state.builds serial) := by
  obtain ⟨building, rfl⟩ := live_iff.mp live
  obtain ⟨other, holds, sound⟩ := h.building building
  rw [held] at holds
  cases holds
  exact sound

theorem Follows.fails (h : Follows state)
    : Follows (state.endBuild serial (state.service.failBuild serial)) := by
  unfold IndexService.failBuild
  split
  · refine Follows.idle h.current h.quiet (Or.inl ?_)
    exact settled_state _ _
  rename_i other
  apply h.returns
  intro live
  exact other (live_iff.mp live).2

theorem MemoryTable.admitted_at (source : MemoryTable) (index : IndexContents)
    (id other : String)
    : ((source.target id).map index.upsert).getD index other
      = if other = id then (source.target id).or (index id) else index other := by
  cases row : source.rows id with
  | none =>
    by_cases same : other = id <;> simp [MemoryTable.target, row, same]
  | some stored =>
    obtain ⟨named, carried⟩ := source.keyed id stored row
    simp [MemoryTable.target, row, project_id carried, IndexContents.upsert, named,
      Function.update_apply]

theorem Follows.collect (h : Follows state) {view : MemoryTable} {visited : List String}
    (scanning : state.builds serial = .admitting view visited) {id : String} (fresh : Bool)
    (unvisited : id ∉ visited)
    : Follows (state.collect serial view visited id fresh) := by
  unfold IndexingState.collect
  split
  · rename_i live
    have subscribed : state.subscribed = true :=
      h.subscribed_of_past (by simp [scanning]) live
    obtain ⟨building, rfl⟩ := live_iff.mp live
    refine ⟨h.current, h.quiet, ?_, h.promised, ?_, ?_⟩
    · intro unsubscribed
      cases subscribed.symm.trans unsubscribed
    · intro _
      obtain ⟨buffered, held, -⟩ := h.building building
      have sound := h.sound_of_live live held
      rw [scanning] at sound
      obtain ⟨empty, follows⟩ := sound
      refine ⟨buffered, held, ?_⟩
      simp only [IndexingState.stage, IndexingState.goto, Function.update_self]
      have written := MemoryTable.admitted_at (if fresh then state.table else view)
        state.service.index id
      refine ⟨?_, follows.collect id ?_ ?_⟩
      · intro other outside
        rw [List.mem_cons, not_or] at outside
        rw [written other, if_neg outside.1]
        exact empty other outside.2
      · intro other apart
        by_cases seen : other ∈ visited
        · simp [seen, written other, apart]
        · simp [seen, apart]
      · have admitted := written id
        rw [if_pos rfl, empty id unvisited, Option.or_none] at admitted
        cases fresh with
        | true => exact Or.inr (by simpa using admitted)
        | false => exact Or.inl (by simpa [unvisited] using admitted)
    · intro ready
      cases building.symm.trans ready
  · rename_i aborted
    exact h.returns aborted

theorem Follows.finish (h : Follows state) {view : MemoryTable} {visited : List String}
    (scanning : state.builds serial = .admitting view visited)
    (complete : ∀ id ∈ view.ids, id ∈ visited)
    : Follows (state.finish serial) := by
  unfold IndexingState.finish
  split
  · rename_i live
    have subscribed : state.subscribed = true :=
      h.subscribed_of_past (by simp [scanning]) live
    obtain ⟨building, rfl⟩ := live_iff.mp live
    refine ⟨h.current, h.quiet, ?_, ?_, ?_, ?_⟩
    · intro unsubscribed
      cases subscribed.symm.trans unsubscribed
    · intro still
      cases (settled_state _ _).symm.trans still
    · intro still
      cases (settled_state _ _).symm.trans still
    · intro _ clean id
      obtain ⟨buffered, held, -⟩ := h.building building
      have sound := h.sound_of_live live held
      rw [scanning] at sound
      obtain ⟨empty, follows⟩ := sound
      have scanned : (if id ∈ visited then state.service.index id else view.target id)
          = state.service.index id := by
        by_cases seen : id ∈ visited
        · rw [if_pos seen]
        have missing : view.rows id = none := by
          by_contra held
          exact seen (complete id (view.listed id held))
        rw [if_neg seen, empty id seen, MemoryTable.target, missing, Option.bind_none]
      have settles := follows clean id
      simp only [scanned, settle_append] at settles
      simpa [IndexingState.endBuild, IndexingState.goto, IndexService.finishBuild, held,
        applied_at] using settles
  · rename_i aborted
    exact h.returns aborted

theorem Follows.buildStep (h : Follows state) {step : BuildStep}
    (taken : state.buildStep serial step = some next)
    : Follows next := by
  cases step with
  | feedReady =>
    simp only [IndexingState.buildStep] at taken
    split at taken
    · rename_i waits feeding
      rw [Option.ite_none_left_eq_some, Option.some.injEq] at taken
      obtain ⟨opened, rfl⟩ := taken
      refine h.continues ?_ ?_
      · intro live
        cases waits with
        | true => simpa using opened
        | false => exact h.subscribed_of_past (by simp [feeding]) live
      · intro buffered live held
        have sound := h.sound_of_live live held
        rw [feeding] at sound
        exact sound
    · cases taken
  | feedFails =>
    simp only [IndexingState.buildStep] at taken
    split at taken
    · rw [Option.ite_none_left_eq_some, Option.some.injEq] at taken
      obtain ⟨-, rfl⟩ := taken
      exact h.fails
    · cases taken
  | counts | countEnds =>
    simp only [IndexingState.buildStep] at taken
    split at taken
    · rename_i counting
      cases taken
      refine h.continues (h.subscribed_of_past (by simp [counting])) ?_
      intro buffered live held
      have sound := h.sound_of_live live held
      rw [counting] at sound
      exact sound
    · cases taken
  | opens =>
    simp only [IndexingState.buildStep] at taken
    split at taken
    · rename_i yielding
      cases taken
      refine h.continues (h.subscribed_of_past (by simp [yielding])) ?_
      intro buffered live held
      have sound := h.sound_of_live live held
      rw [yielding] at sound
      obtain ⟨empty, follows⟩ := sound
      refine ⟨fun id _ => by rw [empty]; rfl, ?_⟩
      simpa using follows
    · cases taken
  | admits id fresh =>
    simp only [IndexingState.buildStep] at taken
    split at taken
    · rename_i view visited scanning
      rw [Option.ite_none_left_eq_some, Option.some.injEq] at taken
      obtain ⟨unvisited, rfl⟩ := taken
      exact h.collect scanning fresh unvisited
    · cases taken
  | scanEnds =>
    simp only [IndexingState.buildStep] at taken
    split at taken
    · rename_i view visited scanning
      rw [Option.ite_none_right_eq_some, Option.some.injEq] at taken
      obtain ⟨complete, rfl⟩ := taken
      exact h.finish scanning complete
    · cases taken
  | scanFails =>
    simp only [IndexingState.buildStep] at taken
    split at taken
    · cases taken
      exact h.fails
    · cases taken
      exact h.fails
    · cases taken
      exact h.fails
    · cases taken

-- Runs

def PendingEvent.id : PendingEvent → String
  | .upsert record => record.id
  | .delete id => id

theorem PendingEvent.id_of_effect {event : PendingEvent} {id : String}
    {value : Option IndexRecord} (h : event.effect id = some value)
    : event.id = id := by
  cases event with
  | upsert record =>
    simp only [effect, Option.ite_none_right_eq_some] at h
    exact h.1.2
  | delete deleted =>
    simp only [effect, Option.ite_none_right_eq_some] at h
    exact h.1

def fitsLate (table : MemoryTable) (queue : List FeedEvent) (others : List HookCall)
    (late : PendingEvent) : Bool :=
  decide (late.effect late.id = some (table.target late.id))
  || queue.any (fun event => event.usable.all fun usable => (usable.effect late.id).isSome)
  || others.any (fun call => decide (call.effect late.id = some (table.target late.id)))

theorem fits_of_fitsLate {others : List HookCall} {late : PendingEvent}
    (h : fitsLate table queue others late = true)
    : Fits table queue others late := by
  intro id value effect
  obtain rfl := PendingEvent.id_of_effect effect
  simp only [fitsLate, Bool.or_eq_true, decide_eq_true_eq, List.any_eq_true] at h
  rcases h with (same | ⟨event, member, newer⟩) | ⟨call, member, carries⟩
  · rw [effect] at same
    exact Or.inl (Option.some.inj same)
  · cases read : event.usable with
    | none => exact Or.inr (Or.inr (Or.inl fun clean => clean event member read))
    | some usable =>
      rw [read, Option.all_some] at newer
      exact Or.inr (Or.inl ⟨usable, List.mem_filterMap.mpr ⟨event, member, read⟩, newer⟩)
  · exact Or.inr (Or.inr (Or.inr ⟨call, member, carries⟩))

/-- A late hook lands on an index that is built or served only when it carries the row's
current value, or when the feed or another hook has yet to bring a newer one. A change that
the feed does not see yet has a hook, or finds no event of its row in the buffer.
-/
def IndexingState.fits (state : IndexingState) : IndexingLabel → Bool
  | .hook position =>
    decide (state.service.state = .empty) || decide (state.service.state = .disabled)
    || ((state.hooks[position]?).bind HookCall.event).all
        (fitsLate state.table state.queue (state.hooks.eraseIdx position))
  | .commit id _ _ hooked =>
    state.subscribed || hooked
    || state.buffered.all fun event => (event.effect id.val).isNone
  | .resync rows _ =>
    state.subscribed
    || rows.all fun change =>
        state.buffered.all fun event => (event.effect change.1.val).isNone
  | _ => true

theorem untouched_of_all {id : String} {events : List PendingEvent}
    (h : (events.all fun event => (event.effect id).isNone) = true)
    : ¬ Touched PendingEvent.effect id events := by
  intro ⟨event, member, writes⟩
  have silent := List.all_eq_true.mp h event member
  rw [Option.isNone_iff_eq_none] at silent
  simp [silent] at writes

theorem Follows.callHook_idle (h : Follows state) {position : Nat}
    (taken : state.callHook position = some next)
    (idle : state.service.state = .empty ∨ state.service.state = .disabled)
    : Follows next := by
  obtain ⟨call, called, rfl⟩ := Option.map_eq_some_iff.mp taken
  have kept : noteMemory state.service call = state.service := by
    unfold noteMemory
    split
    · rcases idle with empty | disabled
      · simp [IndexService.record, empty]
      · simp [IndexService.record, disabled]
    · rfl
  rw [kept]
  refine ⟨h.current, h.quiet, h.opening, h.promised, ?_, ?_⟩
  all_goals
    intro busy
    rcases idle with empty | disabled
    · cases empty.symm.trans busy
    · cases disabled.symm.trans busy

theorem Follows.step (h : Follows state) {label : IndexingLabel}
    (fits : state.fits label = true) (taken : indexingStep state label = some next)
    : Follows next := by
  cases label with
  | commit id row carried hooked =>
    cases taken
    refine h.commit id row carried hooked ?_
    simp only [IndexingState.fits, Bool.or_eq_true] at fits
    rcases fits with (seen | hook) | untouched
    · exact Or.inl seen
    · exact Or.inr (Or.inl hook)
    · exact Or.inr (Or.inr (untouched_of_all untouched))
  | resync rows type =>
    cases taken
    refine h.resync rows type ?_
    simp only [IndexingState.fits, Bool.or_eq_true] at fits
    rcases fits with seen | untouched
    · exact Or.inl seen
    · right
      intro change member
      exact untouched_of_all (List.all_eq_true.mp untouched change member)
  | subscribe => exact h.subscribe taken
  | deliver => exact h.deliver taken
  | feedEnds | rankFails =>
    simp only [indexingStep, Option.ite_none_right_eq_some, Option.some.injEq] at taken
    obtain ⟨-, rfl⟩ := taken
    exact h.disable
  | hook position =>
    simp only [IndexingState.fits, Bool.or_eq_true, decide_eq_true_eq] at fits
    rcases fits with idle | late
    · exact h.callHook_idle taken idle
    refine h.callHook taken ?_
    intro call event called read
    rw [called, Option.bind_some, read, Option.all_some] at late
    exact fits_of_fitsLate late
  | query =>
    cases taken
    exact h.query
  | build serial step => exact h.buildStep taken

theorem follows_of_reachable
    (run : indexing.ReachableUnder (fun state label => state.fits label = true) state)
    : Follows state :=
  run.invariant (fun _ => follows_initially) fun _ _ _ holds fits taken =>
    holds.step fits taken

/-- The index holds exactly the table's rows, each at its latest committed value. -/
def IndexingState.IndexCurrent (state : IndexingState) : Prop :=
  ∀ id, state.service.index id = state.table.target id

def IndexingState.Drained (state : IndexingState) : Prop :=
  state.queue = [] ∧ state.hooks = []

theorem Follows.indexCurrent (h : Follows state) (ready : state.service.state = .ready)
    (drained : state.Drained)
    : state.IndexCurrent := by
  obtain ⟨quiet, unhooked⟩ := drained
  intro id
  have follows := h.serving ready
  rw [quiet, unhooked] at follows
  rcases follows clean_nil id with settled | ⟨call, member, -⟩
  · exact settled
  · cases member

-- Aborted builds

def IndexingState.Replaced (state : IndexingState) (serial : Nat) : Prop :=
  serial < state.service.buildSerial

theorem aborted_step {step : BuildStep} (aborted : state.Replaced serial)
    (taken : state.buildStep serial step = some next)
    : next = state.endBuild serial state.service := by
  have other : serial ≠ state.service.buildSerial := Nat.ne_of_lt aborted
  have dead : state.service.live serial = false := by
    simp [IndexService.live, other]
  have unfailed : state.service.failBuild serial = state.service := if_neg other
  have continued : ∀ stage,
      state.continueBuild serial stage = state.endBuild serial state.service := by
    intro stage
    simp [IndexingState.continueBuild, dead]
  cases step with
  | feedReady | counts | countEnds | opens =>
    simp only [IndexingState.buildStep, continued] at taken
    split at taken
    · simp_all
    · cases taken
  | feedFails | scanFails =>
    simp only [IndexingState.buildStep, unfailed] at taken
    split at taken <;> simp_all
  | admits id fresh =>
    simp only [IndexingState.buildStep, IndexingState.collect, dead] at taken
    split at taken
    · simp_all
    · cases taken
  | scanEnds =>
    simp only [IndexingState.buildStep, IndexingState.finish, dead] at taken
    split at taken
    · simp_all
    · cases taken

theorem aborted_build_keeps {step : BuildStep} (aborted : state.Replaced serial)
    (taken : state.buildStep serial step = some next)
    : next.service.pending = state.service.pending ∧ next.service.index = state.service.index
      ∧ next.service.state = state.service.state := by
  obtain rfl := aborted_step aborted taken
  simp [IndexingState.endBuild]

/-- In every run whose late hooks fit, the index holds the table's rows whenever it is
served with nothing under way; and no build changes what belongs to the build that has
replaced it.
-/
theorem index_follows_table (state : IndexingState)
    : (indexing.ReachableUnder (fun before label => before.fits label = true) state
        → state.service.state = .ready → state.Drained → state.IndexCurrent)
      ∧ ∀ next serial step, state.Replaced serial → state.buildStep serial step = some next
        → next.service.pending = state.service.pending
          ∧ next.service.index = state.service.index
          ∧ next.service.state = state.service.state := by
  constructor
  · intro run ready drained
    exact (follows_of_reachable run).indexCurrent ready drained
  · intro next serial step aborted taken
    exact aborted_build_keeps aborted taken

def emptyWorker : IndexingState where
  table := {
    rows := fun _ => none
    ids := []
    listed := by simp
    keyed := by simp }
  queue := []
  subscribed := false
  hooks := []
  service := .initial
  builds := fun _ => .idle

theorem emptyWorker_starts : indexing.initial emptyWorker :=
  ⟨rfl, rfl, rfl, rfl, fun _ => rfl⟩

def rowWith (content : String) : Record := Record.ofFields [("content", .str content)]

def buildLabels (serial : Nat) : List IndexingLabel := [
  .query, .subscribe, .build serial .feedReady, .build serial .countEnds,
  .build serial .opens]

def memoryM : MemoryId := ⟨"m", by decide⟩

def IndexingState.observed (state : IndexingState) : Bool × Bool × Bool × Bool :=
  (decide (state.service.state = .ready), state.queue.isEmpty, state.hooks.isEmpty,
    decide (state.service.index "m" = state.table.target "m"))

/-- A build loses its index to a marker, its successor buffers a hook and a newer event,
and the first one still returns.
-/
def replacedLabels : List IndexingLabel :=
  buildLabels 1 ++ [.resync [] "reload", .deliver] ++ buildLabels 3 ++ [
    .commit memoryM (some (rowWith "one")) true true,
    .commit memoryM (some (rowWith "two")) true false,
    .hook 0, .build 1 .scanEnds, .build 3 .scanEnds, .deliver, .deliver]

theorem replaced_build_index_follows
    : ∃ state : IndexingState, state.service.state = .ready ∧ state.IndexCurrent
        ∧ (state.table.target "m").isSome = true := by
  have runs : (indexing.runUnder IndexingState.fits emptyWorker replacedLabels).map
      (fun state => (state.observed, (state.table.target "m").isSome))
      = some ((true, true, true, true), true) := by
    decide
  obtain ⟨state, reached, seen⟩ := Option.map_eq_some_iff.mp runs
  simp only [IndexingState.observed, Prod.mk.injEq, decide_eq_true_eq, List.isEmpty_iff] at seen
  obtain ⟨⟨ready, quiet, unhooked, -⟩, held⟩ := seen
  have run := System.reachesUnder_of_runUnder reached
  exact ⟨state, ready, (index_follows_table state).1 ⟨emptyWorker, emptyWorker_starts, run⟩
    ready ⟨quiet, unhooked⟩, held⟩

/-- A hook that lands after the feed has delivered a newer row puts the old one back. -/
theorem late_hook_leaves_old_row
    : ∃ state, indexing.Reachable state ∧ state.service.state = .ready ∧ state.Drained
        ∧ ¬ state.IndexCurrent := by
  have runs : (indexing.run emptyWorker (buildLabels 1 ++ [
        .build 1 .scanEnds, .commit memoryM (some (rowWith "one")) true true,
        .commit memoryM (some (rowWith "two")) true false, .deliver, .deliver, .hook 0])).map
      IndexingState.observed
      = some (true, true, true, false) := by
    decide
  obtain ⟨state, reached, seen⟩ := Option.map_eq_some_iff.mp runs
  simp only [IndexingState.observed, Prod.mk.injEq, decide_eq_true_eq, decide_eq_false_iff_not,
    List.isEmpty_iff] at seen
  obtain ⟨ready, quiet, unhooked, stale⟩ := seen
  have run := System.reachable_of_run emptyWorker_starts reached
  exact ⟨state, run, ready, ⟨quiet, unhooked⟩, fun current => stale (current "m")⟩

end Flair.Lexical
