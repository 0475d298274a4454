import Flair.Foundations.Systems
import Flair.Foundations.Watermark
import Flair.SpokeSync.Selection

/-! The stored sync cursor of a spoke under any number of Memory writers, each of which
stamps its row and commits it later, and of sync runs: what no run has offered to the hub
stays ahead of the cursor as long as every commit does. Follows `runFederationSyncOnce` in
`src/commands/federation.ts` and the stamp of `Memory.put`.
-/

namespace Flair.SpokeSync

open Dynamic Transition Watermark

-- Writers and runs

/-- The stamps `Memory.put` gives a row. -/
def stampMemory (content : Record) (now : String) : Record :=
  let updated := content.set "updatedAt" (.str now)
  let archived :=
    if isNullish (updated.get "archived") then updated.set "archived" (.bool false) else updated
  if isNullish (archived.get "createdAt") then archived.set "createdAt" (.str now) else archived

def stampLegacy (content : Record) (now : String) : Record :=
  (content.set "updatedAt" .null).set "createdAt" (.str now)

def putMemory (rows : List Record) (row : Record) : List Record :=
  row :: rows.filter fun other => decide (other.get "id" ≠ row.get "id")

/-- Where a sync run is: the cursor it read, the instant it captured before its queries, and
the rows it has found or has left to send.
-/
inductive RunStage where
  | idle
  | opened (since : String)
  | captured (since queriedAt : String)
  | queried (since queriedAt : String) (found : List Record)
  | sending (since queriedAt : String) (left : List Record)
  | ended

/-- The spoke: its clock, its committed Memory rows, its stored cursor, the rows writers
have stamped but not committed, the runs, and every row version sent to the hub so far.
-/
structure SpokeState where
  clock : String
  memory : List Record
  cursor : Option String
  writers : Nat → Option Record
  runs : Nat → RunStage
  sent : List Record

inductive SpokeLabel where
  | tick (now : String)
  | stamp (writer : Nat) (content : Record) (legacy : Bool)
  | commit (writer : Nat)
  | remove (id : Option Value)
  | start (run : Nat)
  | capture (run : Nat)
  | queryUpdated (run : Nat)
  | queryUnstamped (run : Nat)
  | send (run count : Nat)
  | fail (run : Nat)
  | finish (run : Nat) (stored : Bool)

def SpokeState.since (state : SpokeState) : String := state.cursor.getD epochIso

def SpokeState.goto (state : SpokeState) (run : Nat) (stage : RunStage) : SpokeState :=
  { state with runs := Function.update state.runs run stage }

/-- One step: a batch is any first part of the rows left, and the cursor is stored only by a
run that has sent them all.
-/
def spokeStep (state : SpokeState) : SpokeLabel → Option SpokeState
  | .tick now => some { state with clock := now }
  | .stamp writer content legacy =>
    let row :=
      if legacy then stampLegacy content state.clock else stampMemory content state.clock
    some { state with writers := Function.update state.writers writer (some row) }
  | .commit writer =>
    (state.writers writer).map fun row => {
      state with
      memory := putMemory state.memory row
      writers := Function.update state.writers writer none }
  | .remove id =>
    some { state with memory := state.memory.filter fun row => decide (row.get "id" ≠ id) }
  | .start run =>
    match state.runs run with
    | .idle => some (state.goto run (.opened state.since))
    | _ => none
  | .capture run =>
    match state.runs run with
    | .opened since => some (state.goto run (.captured since state.clock))
    | _ => none
  | .queryUpdated run =>
    match state.runs run with
    | .captured since queriedAt =>
      some (state.goto run
        (.queried since queriedAt (federable since (updatedSince since state.memory))))
    | _ => none
  | .queryUnstamped run =>
    match state.runs run with
    | .queried since queriedAt found =>
      some (state.goto run
        (.sending since queriedAt
          (found ++ federable since (withoutStamp state.memory))))
    | _ => none
  | .send run count =>
    match state.runs run with
    | .sending since queriedAt left =>
      some ({ state with sent := state.sent ++ left.take count }.goto run
        (.sending since queriedAt (left.drop count)))
    | _ => none
  | .fail run =>
    match state.runs run with
    | .idle => none
    | _ => some (state.goto run .ended)
  | .finish run stored =>
    match state.runs run with
    | .sending _ queriedAt [] =>
      some ({
        state with cursor := if stored then some queriedAt else state.cursor
      }.goto run .ended)
    | _ => none

def spoke : System SpokeState SpokeLabel where
  initial state :=
    state.memory = [] ∧ state.cursor = none ∧ (∀ writer, state.writers writer = none)
      ∧ (∀ run, state.runs run = .idle) ∧ state.sent = []
  step := spokeStep

-- Commits ahead of the cursor

/-- The instant up to which a run no longer looks for the row: the cursor it read before the
row's query, the captured instant after it.
-/
def RunStage.mark (row : Record) : RunStage → Option String
  | .opened since | .captured since _ => some since
  | .queried since queriedAt _ => some (if unstamped row then since else queriedAt)
  | .sending _ queriedAt _ => some queriedAt
  | .idle | .ended => none

def StampedPast (mark : String) (row : Record) : Prop :=
  isFederationPrivate row = false → ∀ stamp, cursorStamp row = some stamp → textLt mark stamp

/-- A writer commits a row only with a stamp past the stored cursor and past the instant up
to which any run in flight no longer looks for it.
-/
def CommitsAhead : Guard SpokeState SpokeLabel := fun state label =>
  ∀ writer row, label = .commit writer → state.writers writer = some row
    → StampedPast state.since row
      ∧ ∀ run mark, (state.runs run).mark row = some mark → StampedPast mark row

def SpokeState.shared (state : SpokeState) : Set Record :=
  { row | row ∈ state.memory ∧ isFederationPrivate row = false }

abbrev Caught (mark : String) (rows delivered : Set Record) : Prop :=
  Delivered textLt cursorStamp mark rows delivered

def ofKind (missing : Bool) : Set Record := { row | unstamped row = missing }

/-- What a run has made sure of: what it no longer looks for was sent or is among the rows it
has found.
-/
def RunStage.Sound (rows sent : Set Record) : RunStage → Prop
  | .opened since | .captured since _ => Caught since rows sent
  | .queried since queriedAt found =>
    Caught since (rows ∩ ofKind true) sent
      ∧ Caught queriedAt (rows ∩ ofKind false) (sent ∪ { row | row ∈ found })
  | .sending _ queriedAt left => Caught queriedAt rows (sent ∪ { row | row ∈ left })
  | .idle | .ended => True

structure Complete (state : SpokeState) : Prop where
  cursor : Caught state.since state.shared { row | row ∈ state.sent }
  runs : ∀ run, (state.runs run).Sound state.shared { row | row ∈ state.sent }

variable {stage : RunStage} {rows sent : Set Record}

theorem RunStage.Sound.mono {fewer more : Set Record} (h : stage.Sound rows sent)
    (removed : fewer ⊆ rows) (added : sent ⊆ more)
    : stage.Sound fewer more := by
  cases stage with
  | idle => trivial
  | ended => trivial
  | opened since => exact Delivered.mono h removed added
  | captured since queriedAt => exact Delivered.mono h removed added
  | queried since queriedAt found =>
    have kinds (missing : Bool) : fewer ∩ ofKind missing ⊆ rows ∩ ofKind missing :=
      Set.inter_subset_inter_left _ removed
    exact ⟨h.1.mono (kinds true) added,
      h.2.mono (kinds false) (Set.union_subset_union_left _ added)⟩
  | sending since queriedAt left =>
    exact Delivered.mono h removed (Set.union_subset_union_left _ added)

variable {row : Record}

theorem RunStage.Sound.store {after : Set Record} (h : stage.Sound rows sent)
    (ahead : ∀ mark, stage.mark row = some mark → ¬ Behind textLt cursorStamp mark row)
    (only : after ⊆ insert row rows)
    : stage.Sound after sent := by
  cases stage with
  | idle => trivial
  | ended => trivial
  | opened since => exact Delivered.store h (ahead since rfl) only
  | captured since queriedAt => exact Delivered.store h (ahead since rfl) only
  | sending since queriedAt left => exact Delivered.store h (ahead queriedAt rfl) only
  | queried since queriedAt found =>
    have other_kind {kind : Bool} (different : unstamped row ≠ kind)
        : after ∩ ofKind kind ⊆ rows ∩ ofKind kind := by
      rintro other ⟨member, same⟩
      rcases only member with rfl | member
      · exact absurd same different
      · exact ⟨member, same⟩
    have same_kind (kind : Bool)
        : after ∩ ofKind kind ⊆ insert row (rows ∩ ofKind kind) := by
      rintro other ⟨member, same⟩
      rcases only member with rfl | member
      · exact Or.inl rfl
      · exact Or.inr ⟨member, same⟩
    cases missing : unstamped row with
    | true =>
      have later := ahead since (by simp [RunStage.mark, missing])
      exact ⟨h.1.store later (same_kind true),
        h.2.mono (other_kind (by simp [missing])) (fun _ member => member)⟩
    | false =>
      have later := ahead queriedAt (by simp [RunStage.mark, missing])
      exact ⟨h.1.mono (other_kind (by simp [missing])) (fun _ member => member),
        h.2.store later (same_kind false)⟩

variable {state next : SpokeState}

theorem Complete.mono (h : Complete state) (removed : next.shared ⊆ state.shared)
    (added : ∀ row ∈ state.sent, row ∈ next.sent) (cursor : next.cursor = state.cursor)
    (runs : ∀ run, next.runs run = state.runs run
      ∨ (next.runs run).Sound next.shared { row | row ∈ next.sent })
    : Complete next := by
  have since : next.since = state.since := by simp [SpokeState.since, cursor]
  refine ⟨?_, ?_⟩
  · rw [since]
    exact h.cursor.mono removed added
  intro run
  rcases runs run with same | sound
  · rw [same]
    exact (h.runs run).mono removed added
  · exact sound

theorem Complete.goto (h : Complete state) {run : Nat}
    (sound : stage.Sound state.shared { row | row ∈ state.sent })
    : Complete (state.goto run stage) := by
  refine h.mono (fun _ member => member) (fun _ member => member) rfl ?_
  intro other
  by_cases same : other = run
  · subst same
    right
    have now : (state.goto other stage).runs other = stage := by simp [SpokeState.goto]
    rw [now]
    exact sound
  · left
    simp [SpokeState.goto, same]

-- One step

theorem past_of_not_behind {mark stamp : String} (own : cursorStamp row = some stamp)
    (h : ¬ Behind textLt cursorStamp mark row)
    : textLt mark stamp := by
  by_contra later
  exact h ⟨stamp, own, later⟩

theorem StampedPast.not_behind {mark : String} (h : StampedPast mark row)
    (shared : isFederationPrivate row = false)
    : ¬ Behind textLt cursorStamp mark row := by
  rintro ⟨stamp, own, early⟩
  exact early (h shared stamp own)

variable {since queriedAt : String}

theorem sound_queryUpdated (h : Caught since state.shared { row | row ∈ state.sent })
    : RunStage.Sound state.shared { row | row ∈ state.sent }
        (.queried since queriedAt (federable since (updatedSince since state.memory))) := by
  refine ⟨h.mono Set.inter_subset_left (fun _ member => member), ?_⟩
  refine (h.mono Set.inter_subset_left (fun _ member => member)).scan ?_
  rintro row ⟨⟨member, shared⟩, stamped⟩ ⟨stamp, own, -⟩ later
  exact mem_updatedSince member stamped own (past_of_not_behind own later) shared

theorem sound_queryUnstamped {found : List Record}
    (h : RunStage.Sound state.shared { row | row ∈ state.sent } (.queried since queriedAt found))
    : RunStage.Sound state.shared { row | row ∈ state.sent }
        (.sending since queriedAt (found ++ federable since (withoutStamp state.memory))) := by
  obtain ⟨early, covered⟩ := h
  have scanned : Caught queriedAt (state.shared ∩ ofKind true)
      ({ row | row ∈ state.sent }
        ∪ { row | row ∈ federable since (withoutStamp state.memory) }) := by
    refine early.scan ?_
    rintro row ⟨⟨member, shared⟩, missing⟩ ⟨stamp, own, -⟩ later
    exact mem_withoutStamp member missing own (past_of_not_behind own later) shared
  intro row member behind
  cases kind : unstamped row with
  | true =>
    rcases scanned row ⟨member, kind⟩ behind with sent | selected
    · exact Or.inl sent
    · exact Or.inr (List.mem_append_right found selected)
  | false =>
    rcases covered row ⟨member, kind⟩ behind with sent | selected
    · exact Or.inl sent
    · exact Or.inr (List.mem_append_left _ selected)

theorem sound_send {left : List Record} {after : Set Record} (count : Nat)
    (h : RunStage.Sound rows sent (.sending since queriedAt left)) (more : sent ⊆ after)
    (taken : ∀ row ∈ left.take count, row ∈ after)
    : RunStage.Sound rows after (.sending since queriedAt (left.drop count)) := by
  intro row member behind
  rcases h row member behind with before | waiting
  · exact Or.inl (more before)
  have somewhere : row ∈ left.take count ++ left.drop count := by
    rw [List.take_append_drop]
    exact waiting
  rcases List.mem_append.mp somewhere with first | later
  · exact Or.inl (taken row first)
  · exact Or.inr later

theorem shared_putMemory (state next : SpokeState) (row : Record)
    (memory : next.memory = putMemory state.memory row)
    : next.shared ⊆ insert row state.shared := by
  rintro other ⟨member, shared⟩
  rw [memory, putMemory, List.mem_cons] at member
  rcases member with rfl | member
  · exact Or.inl rfl
  · exact Or.inr ⟨List.mem_of_mem_filter member, shared⟩

theorem Complete.commit (h : Complete state) (cursor : StampedPast state.since row)
    (runs : ∀ run mark, (state.runs run).mark row = some mark → StampedPast mark row)
    (memory : next.memory = putMemory state.memory row)
    (same : next.cursor = state.cursor ∧ next.runs = state.runs ∧ next.sent = state.sent)
    : Complete next := by
  obtain ⟨sameCursor, sameRuns, sameSent⟩ := same
  have since : next.since = state.since := by simp [SpokeState.since, sameCursor]
  have only := shared_putMemory state next row memory
  cases shared : isFederationPrivate row with
  | true =>
    have fewer : next.shared ⊆ state.shared := by
      intro other member
      rcases only member with rfl | old
      · exact absurd (shared.symm.trans member.2) (by decide)
      · exact old
    refine h.mono fewer (by simp [sameSent]) sameCursor ?_
    intro run
    rw [sameRuns]
    exact Or.inl rfl
  | false =>
    refine ⟨?_, ?_⟩
    · rw [since, sameSent]
      exact h.cursor.store (cursor.not_behind shared) only
    intro run
    rw [sameRuns, sameSent]
    exact (h.runs run).store (fun mark at_mark => (runs run mark at_mark).not_behind shared)
      only

theorem Complete.step {label : SpokeLabel} (h : Complete state) (ahead : CommitsAhead state label)
    (taken : spokeStep state label = some next)
    : Complete next := by
  cases label with
  | tick now =>
    cases taken
    exact h.mono (fun _ member => member) (fun _ member => member) rfl (fun _ => Or.inl rfl)
  | stamp writer content legacy =>
    cases taken
    exact h.mono (fun _ member => member) (fun _ member => member) rfl (fun _ => Or.inl rfl)
  | commit writer =>
    obtain ⟨row, stamped, rfl⟩ := Option.map_eq_some_iff.mp taken
    obtain ⟨cursor, runs⟩ := ahead writer row rfl stamped
    exact h.commit cursor runs rfl ⟨rfl, rfl, rfl⟩
  | remove id =>
    cases taken
    refine h.mono ?_ (fun _ member => member) rfl (fun _ => Or.inl rfl)
    rintro row ⟨member, shared⟩
    exact ⟨List.mem_of_mem_filter member, shared⟩
  | start run =>
    simp only [spokeStep] at taken
    split at taken
    · cases taken
      exact h.goto h.cursor
    · cases taken
  | capture run =>
    simp only [spokeStep] at taken
    split at taken
    · rename_i since at_stage
      cases taken
      have sound := h.runs run
      rw [at_stage] at sound
      exact h.goto sound
    · cases taken
  | queryUpdated run =>
    simp only [spokeStep] at taken
    split at taken
    · rename_i since queriedAt at_stage
      cases taken
      have sound := h.runs run
      rw [at_stage] at sound
      exact h.goto (sound_queryUpdated sound)
    · cases taken
  | queryUnstamped run =>
    simp only [spokeStep] at taken
    split at taken
    · rename_i since queriedAt found at_stage
      cases taken
      have sound := h.runs run
      rw [at_stage] at sound
      exact h.goto (sound_queryUnstamped sound)
    · cases taken
  | send run count =>
    simp only [spokeStep] at taken
    split at taken
    · rename_i since queriedAt left at_stage
      cases taken
      have sound := h.runs run
      rw [at_stage] at sound
      refine h.mono (fun _ member => member)
        (fun row member => List.mem_append_left _ member) rfl ?_
      intro other
      by_cases same : other = run
      · subst same
        right
        simp only [SpokeState.goto, Function.update_self]
        exact sound_send count sound (fun row member => List.mem_append_left _ member)
          (fun row member => List.mem_append_right _ member)
      · left
        simp [SpokeState.goto, same]
    · cases taken
  | fail run =>
    simp only [spokeStep] at taken
    split at taken
    · cases taken
    · cases taken
      exact h.goto trivial
  | finish run stored =>
    simp only [spokeStep] at taken
    split at taken
    · rename_i since queriedAt at_stage
      cases taken
      have sound := h.runs run
      rw [at_stage] at sound
      have done : Caught queriedAt state.shared { row | row ∈ state.sent } := by
        refine Delivered.mono sound (fun _ member => member) ?_
        rintro row (sent | none)
        · exact sent
        · cases none
      cases stored with
      | false => exact Complete.goto h trivial
      | true =>
        have advanced : Complete { state with cursor := some queriedAt } :=
          ⟨done, h.runs⟩
        exact advanced.goto trivial
    · cases taken

-- Whole runs

/-- In every run whose commits stay ahead, each committed version that is not private and
whose stamp is not past the stored cursor has been sent to the hub.
-/
theorem committed_versions_sent {state : SpokeState} {cursor stamp : String} {row : Record}
    (reached : spoke.ReachableUnder CommitsAhead state) (committed : row ∈ state.memory)
    (shared : isFederationPrivate row = false) (stored : state.cursor = some cursor)
    (own : cursorStamp row = some stamp) (behind : ¬ textLt cursor stamp)
    : row ∈ state.sent := by
  have complete : Complete state := by
    refine reached.invariant ?_ (fun _ _ _ h ahead taken => h.step ahead taken)
    rintro start ⟨memory, -, -, idle, -⟩
    refine ⟨?_, ?_⟩
    · rintro other ⟨member, -⟩
      rw [memory] at member
      cases member
    · intro run
      rw [idle]
      trivial
  apply complete.cursor row ⟨committed, shared⟩
  exact ⟨stamp, own, by simpa [SpokeState.since, stored] using behind⟩

theorem commitsAhead_of_ne {labels : List SpokeLabel}
    (h : ∀ label ∈ labels, ∀ writer, label ≠ .commit writer)
    : ∀ label ∈ labels, ∀ state, CommitsAhead state label := by
  intro label member state writer row commits
  exact absurd commits (h label member writer)

def freshSpoke : SpokeState where
  clock := "2026-01-01T00:00:00.000Z"
  memory := []
  cursor := none
  writers _ := none
  runs _ := .idle
  sent := []

def noteContent : Record := Record.ofFields [("id", .str "m1"), ("content", .str "text")]

def note : Record := stampMemory noteContent "2026-01-01T00:00:00.000Z"

theorem noteStamp : cursorStamp note = some "2026-01-01T00:00:00.000Z" := by decide

/-- A row committed before a run starts is sent before the cursor passes its stamp. -/
theorem early_commit_sent
    : ∃ stamped committed state,
        spoke.step freshSpoke (.stamp 0 noteContent false) = some stamped
        ∧ spoke.step stamped (.commit 0) = some committed
        ∧ spoke.run committed [.tick "2026-01-02T00:00:00.000Z", .start 0, .capture 0,
            .queryUpdated 0, .queryUnstamped 0, .send 0 1, .finish 0 true] = some state
        ∧ state.cursor = some "2026-01-02T00:00:00.000Z" ∧ note ∈ state.sent := by
  let stamped : SpokeState :=
    { freshSpoke with writers := Function.update freshSpoke.writers 0 (some note) }
  let committed : SpokeState :=
    { stamped with memory := [note], writers := Function.update stamped.writers 0 none }
  let labels : List SpokeLabel := [.tick "2026-01-02T00:00:00.000Z", .start 0, .capture 0,
    .queryUpdated 0, .queryUnstamped 0, .send 0 1, .finish 0 true]
  have first : spoke.step freshSpoke (.stamp 0 noteContent false) = some stamped := rfl
  have second : spoke.step stamped (.commit 0) = some committed := rfl
  have seen : (spoke.run committed labels).map (fun state => (state.memory, state.cursor))
      = some ([note], some "2026-01-02T00:00:00.000Z") := by
    decide
  obtain ⟨state, run, read⟩ := Option.map_eq_some_iff.mp seen
  obtain ⟨memory, cursor⟩ := Prod.mk.inj read
  refine ⟨stamped, committed, state, first, second, run, cursor, ?_⟩
  have allowed : CommitsAhead stamped (.commit 0) := by
    intro writer other same found
    obtain rfl := SpokeLabel.commit.inj same
    obtain rfl : note = other := Option.some.inj found
    refine ⟨?_, fun _ _ marked => by cases marked⟩
    intro _ stamp own
    obtain rfl := Option.some.inj (own.symm.trans noteStamp)
    decide
  have start : spoke.ReachesUnder CommitsAhead freshSpoke stamped :=
    System.ReachesUnder.single (fun _ _ same => by cases same) first
  have rest : spoke.ReachesUnder CommitsAhead committed state :=
    System.reachesUnder_of_run (commitsAhead_of_ne (by simp [labels])) run
  have reached : spoke.ReachableUnder CommitsAhead state :=
    ⟨freshSpoke, ⟨rfl, rfl, fun _ => rfl, fun _ => rfl, rfl⟩,
      (start.trans (System.ReachesUnder.single allowed second)).trans rest⟩
  exact committed_versions_sent reached (by simp [memory]) (by decide) cursor noteStamp
    (by decide)

/-- A row stamped before a run captures its instant and committed after the run's query is
behind the stored cursor and was never sent.
-/
theorem late_commit_lost
    : ∃ state cursor stamp,
        spoke.Reachable state ∧ note ∈ state.memory ∧ isFederationPrivate note = false
        ∧ state.cursor = some cursor ∧ cursorStamp note = some stamp
        ∧ ¬ textLt cursor stamp ∧ note ∉ state.sent := by
  let labels : List SpokeLabel := [.stamp 0 noteContent false,
    .tick "2026-01-02T00:00:00.000Z", .start 0, .capture 0, .queryUpdated 0,
    .queryUnstamped 0, .finish 0 true, .commit 0]
  have seen : (spoke.run freshSpoke labels).map
        (fun state => (state.memory, state.cursor, state.sent))
      = some ([note], some "2026-01-02T00:00:00.000Z", []) := by
    decide
  obtain ⟨state, run, read⟩ := Option.map_eq_some_iff.mp seen
  obtain ⟨memory, read⟩ := Prod.mk.inj read
  obtain ⟨cursor, sent⟩ := Prod.mk.inj read
  have start : spoke.initial freshSpoke := ⟨rfl, rfl, fun _ => rfl, fun _ => rfl, rfl⟩
  exact ⟨state, _, _, System.reachable_of_run start run, by simp [memory], by decide, cursor,
    noteStamp, by decide, by simp [sent]⟩

end Flair.SpokeSync
