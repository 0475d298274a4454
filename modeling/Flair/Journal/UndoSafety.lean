import Flair.Journal.WriteJournal

/-! What an undo that answers yes has restored, and what its commits replace, in every run of
a journal beside any other writers.
-/

namespace Flair.Journal

open Dynamic Transition

universe u

variable {Key : Type u} [DecidableEq Key]

-- The first write of a row

def ownWrite (key : Key) (entry : Entry Key) : Bool := entry.applied && decide (entry.key = key)

def firstWrite (entries : List (Entry Key)) (key : Key) : Option (Entry Key) :=
  entries.find? (ownWrite key)

/-- For every row, what has been undone last is the earliest write among the passed ones. The
undo passes the writes from the last to the first.
-/
def Covers (passed undone : List (Entry Key)) : Prop :=
  ∀ key, undone.find? (fun entry => decide (entry.key = key))
    = passed.reverse.find? (ownWrite key)

variable {undone : List (Entry Key)} {key : Key} {entry : Entry Key}

omit [DecidableEq Key] in
theorem mem_of_find_key [DecidableEq Key]
    (found : undone.find? (fun entry => decide (entry.key = key)) = some entry)
    : entry ∈ undone ∧ entry.key = key :=
  ⟨List.mem_of_find?_eq_some found, by simpa using List.find?_some found⟩

theorem find_setUndone (entry : Entry Key) (undone : List (Entry Key)) (key : Key)
    : (setUndone entry undone).find? (fun other => decide (other.key = key))
      = if entry.key = key then some entry
        else undone.find? fun other => decide (other.key = key) := by
  by_cases same : entry.key = key
  · simp [setUndone, same]
  rw [if_neg same, setUndone, List.find?_cons_of_neg (by simpa using same), List.find?_filter]
  congr 1
  funext other
  by_cases found : other.key = key
  · simp [found, Ne.symm same]
  · simp [found]

variable {passed : List (Entry Key)}

theorem Covers.undo (covers : Covers passed undone) (applied : entry.applied = true)
    : Covers (passed ++ [entry]) (setUndone entry undone) := by
  intro key
  rw [find_setUndone, List.reverse_append, List.reverse_singleton, List.singleton_append]
  by_cases same : entry.key = key
  · rw [if_pos same, List.find?_cons_of_pos (by simp [ownWrite, applied, same])]
  · rw [if_neg same, List.find?_cons_of_neg (by simp [ownWrite, same])]
    exact covers key

theorem Covers.pass (covers : Covers passed undone) (unapplied : entry.applied = false)
    : Covers (passed ++ [entry]) undone := by
  intro key
  rw [List.reverse_append, List.reverse_singleton, List.singleton_append,
    List.find?_cons_of_neg (by simp [ownWrite, unapplied])]
  exact covers key

theorem setUndone_nodup (entry : Entry Key) (distinct : (undone.map Entry.key).Nodup)
    : ((setUndone entry undone).map Entry.key).Nodup := by
  rw [setUndone, List.map_cons, List.nodup_cons]
  constructor
  · intro member
    obtain ⟨other, kept, same⟩ := List.mem_map.mp member
    have apart := (List.mem_filter.mp kept).2
    simp [same] at apart
  · exact (List.filter_sublist.map Entry.key).nodup distinct

-- What holds of every state

namespace JournalState

/-- The row is back, as long as no one else has written it since the undo's last read. -/
def Restored (state : JournalState Key) (entry : Entry Key) : Prop :=
  state.touched entry.key = false → state.value entry.key = entry.before

def Passed (state : JournalState Key) (passed left : List (Entry Key)) : Prop :=
  state.entries.reverse = passed ++ left
  ∧ (state.confirmed = true → Covers passed state.undone)

def At (state : JournalState Key) (entry : Entry Key) (left : List (Entry Key)) : Prop :=
  entry.applied = true ∧ ∃ passed, state.Passed passed (entry :: left)

def Rechecks (state : JournalState Key) (awaited : Entry Key → Prop) : Prop :=
  state.confirmed = true
  → Covers state.entries.reverse state.undone
    ∧ ∀ entry ∈ state.undone, awaited entry ∨ state.Restored entry

def Undone (state : JournalState Key) (left : List (Entry Key)) : Prop :=
  ∀ entry ∈ left, entry ∈ state.undone

def StageSound (state : JournalState Key) : UndoStage Key → Prop
  | .recording => state.undone = []
  | .reading entry left | .transacting entry left | .committing entry left
  | .failed entry left => state.At entry left
  | .readingBack entry left undoVersion | .readingVersion entry left undoVersion =>
    state.At entry left ∧ state.authorOf undoVersion = some .undo
  | .rechecking left => state.Undone left ∧ state.Rechecks fun entry => entry ∈ left
  | .recheckingVersion entry left current =>
    state.Undone left
    ∧ state.Rechecks fun other => other ∈ left ∨ (other = entry ∧ current ≠ entry.before)
  | .returned confirmed =>
    confirmed = true → state.confirmed = true ∧ state.Rechecks fun _ => False
  | .threw => True

structure Sound (state : JournalState Key) : Prop where
  journaled : ∀ entry ∈ state.entries, state.authorOf entry.version = some .journal
  versioned
    : ∀ key version, state.versions key = some version
      → state.authorOf version = some .undo
  distinct : (state.undone.map Entry.key).Nodup
  stage : state.StageSound state.stage

end JournalState

-- The loop over the entries

omit [DecidableEq Key] in
theorem nextEntry_eq (site : Site Key) (left : List (Entry Key)) (state : JournalState Key)
    : nextEntry site left state
      = { state with
          confirmed := (nextEntry site left state).confirmed
          stage := (nextEntry site left state).stage } := by
  induction left generalizing state with
  | nil => rfl
  | cons entry rest ih =>
    unfold nextEntry
    split
    · exact ih state
    · split
      · exact ih state.doubt
      · rfl

variable {state : JournalState Key} {left : List (Entry Key)}

theorem sound_recheckStage (undone : state.Undone left)
    (rechecks : state.Rechecks fun entry => entry ∈ left)
    : state.StageSound (recheckStage state left) := by
  cases left with
  | nil =>
    intro confirmed
    refine ⟨confirmed, ?_⟩
    intro _
    obtain ⟨covers, restored⟩ := rechecks confirmed
    exact ⟨covers, fun entry member =>
      Or.inr ((restored entry member).resolve_left List.not_mem_nil)⟩
  | cons entry rest => exact ⟨undone, rechecks⟩

/-- The loop reaches an applied write, or the rechecks, by induction on the entries left. -/
theorem sound_nextEntry (site : Site Key) (at_left : state.Passed passed left)
    : (nextEntry site left state).StageSound (nextEntry site left state).stage := by
  induction left generalizing state passed with
  | nil =>
    refine sound_recheckStage (fun entry member => member) ?_
    intro confirmed
    obtain ⟨all, covers⟩ := at_left
    rw [List.append_nil] at all
    refine ⟨?_, fun entry member => Or.inl member⟩
    show Covers state.entries.reverse state.undone
    rw [all]
    exact covers confirmed
  | cons entry rest ih =>
    obtain ⟨all, covers⟩ := at_left
    have step : state.entries.reverse = (passed ++ [entry]) ++ rest := by simp [all]
    unfold nextEntry
    split
    · rename_i unapplied
      have unapplied : entry.applied = false := by simpa using unapplied
      exact ih ⟨step, fun confirmed => (covers confirmed).pass unapplied⟩
    · rename_i applied
      split
      · have doubted : state.doubt.Passed (passed ++ [entry]) rest :=
          ⟨step, fun confirmed => by cases confirmed⟩
        exact ih doubted
      · exact ⟨by simpa using applied, passed, all, covers⟩

-- What each kind of change keeps

variable {version : Nat}

omit [DecidableEq Key] in
theorem JournalState.MayCommit.keeps {author owner : Author} {earlier : Nat}
    (may : state.MayCommit author version) (committed : state.authorOf earlier = some owner)
    : Function.update state.authorOf version (some author) earlier = some owner := by
  by_cases same : earlier = version
  · subst same
    rw [Function.update_self]
    rcases may with unused | own
    · rw [unused] at committed
      cases committed
    · rw [← own, committed]
  · rw [Function.update_of_ne same, committed]

omit [DecidableEq Key] in
theorem notePointer_eq (state : JournalState Key) (site : Site Key) (key : Key)
    (current : Option Record)
    : state.notePointer site key current
      = { state with pointerChanged := (state.notePointer site key current).pointerChanged } := by
  unfold JournalState.notePointer
  split <;> rfl

theorem JournalState.Sound.goto (h : state.Sound) {stage : UndoStage Key}
    (sound : state.StageSound stage)
    : (state.goto stage).Sound where
  journaled := h.journaled
  versioned := h.versioned
  distinct := h.distinct
  stage := by
    cases stage <;> exact sound

theorem JournalState.Sound.next (site : Site Key)
    (journaled : ∀ entry ∈ state.entries, state.authorOf entry.version = some .journal)
    (versioned : ∀ key version, state.versions key = some version
      → state.authorOf version = some .undo)
    (distinct : (state.undone.map Entry.key).Nodup) (at_left : state.Passed passed left)
    : (nextEntry site left state).Sound := by
  have stage := sound_nextEntry site at_left
  rw [nextEntry_eq] at stage ⊢
  exact ⟨journaled, versioned, distinct, stage⟩

theorem JournalState.At.passed_doubt (h : state.At entry left)
    : ∃ passed, state.doubt.Passed passed left := by
  obtain ⟨-, passed, all, -⟩ := h
  exact ⟨passed ++ [entry], by simpa [JournalState.doubt] using all,
    fun confirmed => by cases confirmed⟩

theorem JournalState.Sound.giveUp (h : state.Sound) (site : Site Key)
    (at_entry : state.At entry left) (changed : Bool)
    : (nextEntry site left { state.doubt with pointerChanged := changed }).Sound := by
  obtain ⟨passed, at_left⟩ := at_entry.passed_doubt
  have noted : JournalState.Passed { state.doubt with pointerChanged := changed } passed left :=
    at_left
  exact .next site h.journaled h.versioned h.distinct noted

-- One step

theorem commitWrites_version {writes : List (StagedWrite Key)} {store : Key → Option Stored}
    : ∀ entry ∈ (commitWrites version writes store).2, entry.version = version := by
  induction writes generalizing store with
  | nil => simp [commitWrites]
  | cons write rest ih =>
    intro entry member
    simp only [commitWrites, List.mem_cons] at member
    rcases member with rfl | later
    · rfl
    · exact ih entry later

variable {site : Site Key} {next : JournalState Key}

theorem sound_write {writes : List (StagedWrite Key)} {landed : Bool} (h : state.Sound)
    (taken : journalStep site state (.write version writes landed) = some next)
    : next.Sound := by
  simp only [journalStep] at taken
  split at taken
  · rename_i at_recording
    split at taken
    · rename_i may
      cases taken
      have empty := h.stage
      rw [at_recording] at empty
      refine ⟨?_, ?_, h.distinct, ?_⟩
      · intro entry member
        rcases List.mem_append.mp member with earlier | added
        · exact may.keeps (h.journaled entry earlier)
        · rw [commitWrites_version entry added]
          exact Function.update_self ..
      · intro key version held
        exact may.keeps (h.versioned key version held)
      · simp only [at_recording]
        exact empty
    · cases taken
  · cases taken

theorem restored_other (restored : state.Restored entry) (key : Key) (version : Nat)
    (value : Option Record)
    : JournalState.Restored
        { state.put key .other version value with
          touched := Function.update state.touched key true } entry := by
  intro untouched
  have untouched : Function.update state.touched key true entry.key = false := untouched
  by_cases same : entry.key = key
  · rw [same, Function.update_self] at untouched
    cases untouched
  rw [Function.update_of_ne same] at untouched
  show (Function.update state.store key _ entry.key).map Stored.value = entry.before
  rw [Function.update_of_ne same]
  exact restored untouched

theorem sound_other {value : Option Record} (h : state.Sound)
    (taken : journalStep site state (.other key version value) = some next)
    : next.Sound := by
  simp only [journalStep] at taken
  split at taken
  · rename_i may
    cases taken
    have rechecks {awaited : Entry Key → Prop} (before : state.Rechecks awaited)
        : JournalState.Rechecks
            { state.put key .other version value with
              touched := Function.update state.touched key true } awaited := by
      intro confirmed
      obtain ⟨covers, restored⟩ := before confirmed
      exact ⟨covers, fun entry member =>
        (restored entry member).imp_right fun back => restored_other back key version value⟩
    refine ⟨?_, ?_, h.distinct, ?_⟩
    · intro entry member
      exact may.keeps (h.journaled entry member)
    · intro other earlier held
      exact may.keeps (h.versioned other earlier held)
    have stage := h.stage
    show JournalState.StageSound _ state.stage
    cases at_stage : state.stage with
    | recording | reading | transacting | committing | failed =>
      rw [at_stage] at stage
      exact stage
    | readingBack entry left undoVersion | readingVersion entry left undoVersion =>
      rw [at_stage] at stage
      exact ⟨stage.1, may.keeps stage.2⟩
    | rechecking left | recheckingVersion entry left current =>
      rw [at_stage] at stage
      exact ⟨stage.1, rechecks stage.2⟩
    | returned confirmed =>
      rw [at_stage] at stage
      intro yes
      exact ⟨(stage yes).1, rechecks (stage yes).2⟩
    | threw => trivial
  · cases taken

theorem sound_commit {now : Int} {landed resolves : Bool} (h : state.Sound)
    (taken : journalStep site state (.commit now version landed resolves) = some next)
    : next.Sound := by
  simp only [journalStep] at taken
  split at taken
  · rename_i entry left at_committing
    have at_entry := h.stage
    rw [at_committing] at at_entry
    split at taken
    · split at taken
      · rename_i may
        cases taken
        refine ⟨?_, ?_, h.distinct, ?_⟩
        · intro recorded member
          exact may.keeps (h.journaled recorded member)
        · intro key earlier held
          exact may.keeps (h.versioned key earlier held)
        · cases resolves with
          | true => exact ⟨at_entry, Function.update_self ..⟩
          | false => exact at_entry
      · cases taken
    · cases taken
      rw [notePointer_eq]
      exact ⟨h.journaled, h.versioned, h.distinct, at_entry⟩
  · cases taken

variable {label : JournalLabel Key}

theorem sound_reads (h : state.Sound)
    (kind : (∃ now readable, label = .read now readable)
      ∨ (∃ now seen readable, label = .readInside now seen readable) ∨ label = .commitFails)
    (taken : journalStep site state label = some next)
    : next.Sound := by
  rcases kind with ⟨now, readable, rfl⟩ | ⟨now, seen, readable, rfl⟩ | rfl
  · simp only [journalStep] at taken
    split at taken
    · rename_i entry left at_reading
      have at_entry := h.stage
      rw [at_reading] at at_entry
      cases taken
      split
      · exact h.goto at_entry
      split
      · exact h.goto at_entry
      · rw [notePointer_eq]
        exact h.giveUp site at_entry _
    · cases taken
  · simp only [journalStep] at taken
    split at taken
    · rename_i entry left at_transacting
      have at_entry := h.stage
      rw [at_transacting] at at_entry
      cases taken
      split
      · exact h.goto at_entry
      · exact h.goto at_entry
    · cases taken
  · simp only [journalStep] at taken
    split at taken
    · rename_i entry left at_committing
      have at_entry := h.stage
      rw [at_committing] at at_entry
      cases taken
      exact h.goto at_entry
    · cases taken

variable {readable : Bool}

theorem sound_readBack (h : state.Sound)
    (taken : journalStep site state (.readBack readable) = some next)
    : next.Sound := by
  simp only [journalStep] at taken
  split at taken
  · rename_i entry left undoVersion at_readingBack
    have stage := h.stage
    rw [at_readingBack] at stage
    obtain ⟨⟨applied, passed, all, covers⟩, own⟩ := stage
    cases taken
    split
    · exact h.goto ⟨applied, passed, all, covers⟩
    refine ⟨h.journaled, h.versioned, h.distinct, ⟨applied, passed, all, ?_⟩, own⟩
    intro confirmed
    simp only [JournalState.goto, Bool.and_eq_true] at confirmed
    exact covers confirmed.1
  · cases taken

theorem sound_readVersion (h : state.Sound)
    (taken : journalStep site state (.readVersion readable) = some next)
    : next.Sound := by
  simp only [journalStep] at taken
  split at taken
  · rename_i entry left undoVersion at_readingVersion
    have stage := h.stage
    rw [at_readingVersion] at stage
    obtain ⟨⟨applied, passed, all, covers⟩, own⟩ := stage
    cases taken
    split
    · exact h.goto ⟨applied, passed, all, covers⟩
    have at_left : state.entries.reverse = (passed ++ [entry]) ++ left := by simp [all]
    refine .next site h.journaled ?_ (setUndone_nodup entry h.distinct) ⟨at_left, ?_⟩
    · intro key version held
      have held : Function.update state.versions entry.key (some undoVersion) key
          = some version := held
      by_cases same : key = entry.key
      · rw [same, Function.update_self] at held
        rw [← Option.some.inj held]
        exact own
      · rw [Function.update_of_ne same] at held
        exact h.versioned key version held
    · intro confirmed
      have confirmed := (Bool.and_eq_true _ _).mp confirmed
      exact (covers confirmed.1).undo applied
  · cases taken

theorem sound_afterFailure (h : state.Sound)
    (taken : journalStep site state (.afterFailure readable) = some next)
    : next.Sound := by
  simp only [journalStep] at taken
  split at taken
  · rename_i entry left at_failed
    have at_entry := h.stage
    rw [at_failed] at at_entry
    cases taken
    split
    · rw [notePointer_eq]
      exact h.giveUp site at_entry _
    · exact h.giveUp site at_entry _
  · cases taken

theorem sound_recheck (h : state.Sound)
    (taken : journalStep site state (.recheck entry readable) = some next)
    : next.Sound := by
  simp only [journalStep] at taken
  split at taken
  · rename_i left at_rechecking
    have stage := h.stage
    rw [at_rechecking] at stage
    obtain ⟨undone, rechecks⟩ := stage
    split at taken
    · rename_i awaited
      cases taken
      have later : state.Undone (left.erase entry) :=
        fun other member => undone other (List.mem_of_mem_erase member)
      split
      · refine ⟨h.journaled, h.versioned, h.distinct, ?_⟩
        exact sound_recheckStage later fun confirmed => by cases confirmed
      refine ⟨h.journaled, h.versioned, h.distinct, later, ?_⟩
      intro confirmed
      obtain ⟨covers, restored⟩ := rechecks confirmed
      refine ⟨covers, ?_⟩
      intro other member
      by_cases same : other = entry
      · subst same
        by_cases back : state.value other.key = other.before
        · exact Or.inr fun _ => back
        · exact Or.inl (Or.inr ⟨rfl, back⟩)
      · have apart : other.key ≠ entry.key := fun keys =>
          same (List.inj_on_of_nodup_map h.distinct member (undone entry awaited) keys)
        rcases restored other member with left_over | back
        · exact Or.inl (Or.inl ((List.mem_erase_of_ne same).mpr left_over))
        right
        intro untouched
        have untouched : Function.update state.touched entry.key false other.key = false :=
          untouched
        rw [Function.update_of_ne apart] at untouched
        exact back untouched
    · cases taken
  · cases taken

theorem sound_recheckVersion (h : state.Sound)
    (taken : journalStep site state (.recheckVersion readable) = some next)
    : next.Sound := by
  simp only [journalStep] at taken
  split at taken
  · rename_i entry left current at_recheckingVersion
    have stage := h.stage
    rw [at_recheckingVersion] at stage
    obtain ⟨undone, rechecks⟩ := stage
    cases taken
    split
    · refine ⟨h.journaled, h.versioned, h.distinct, ?_⟩
      exact sound_recheckStage undone fun confirmed => by cases confirmed
    split
    · rename_i passes
      refine h.goto (sound_recheckStage undone ?_)
      have back : current = entry.before := by
        simp only [Bool.and_eq_true, decide_eq_true_eq] at passes
        exact passes.1
      intro confirmed
      obtain ⟨covers, restored⟩ := rechecks confirmed
      refine ⟨covers, fun other member => (restored other member).imp_left ?_⟩
      rintro (left_over | ⟨-, lost⟩)
      · exact left_over
      · exact absurd back lost
    · rw [notePointer_eq]
      refine ⟨h.journaled, h.versioned, h.distinct, ?_⟩
      exact sound_recheckStage undone fun confirmed => by cases confirmed
  · cases taken

theorem JournalState.Sound.step (h : state.Sound) (taken : journalStep site state label = some next)
    : next.Sound := by
  cases label with
  | write version writes landed => exact sound_write h taken
  | other key version value => exact sound_other h taken
  | undo covered =>
    simp only [journalStep] at taken
    split at taken
    · rename_i at_recording
      have empty := h.stage
      rw [at_recording] at empty
      cases taken
      split
      · have at_left : JournalState.Passed { state with confirmed := true } []
            state.entries.reverse := by
          refine ⟨rfl, fun _ key => ?_⟩
          show state.undone.find? _ = _
          rw [show state.undone = [] from empty]
          rfl
        exact .next site h.journaled h.versioned h.distinct at_left
      · exact h.goto trivial
    · cases taken
  | read now readable => exact sound_reads h (Or.inl ⟨now, readable, rfl⟩) taken
  | readInside now seen readable =>
    exact sound_reads h (Or.inr (Or.inl ⟨now, seen, readable, rfl⟩)) taken
  | commitFails => exact sound_reads h (Or.inr (Or.inr rfl)) taken
  | commit now version landed resolves => exact sound_commit h taken
  | readBack readable => exact sound_readBack h taken
  | readVersion readable => exact sound_readVersion h taken
  | afterFailure readable => exact sound_afterFailure h taken
  | recheck entry readable => exact sound_recheck h taken
  | recheckVersion readable => exact sound_recheckVersion h taken

-- What the undo replaces

omit [DecidableEq Key] in
@[simp] theorem nextEntry_store (site : Site Key) (left : List (Entry Key))
    (state : JournalState Key)
    : (nextEntry site left state).store = state.store := by
  rw [nextEntry_eq]

omit [DecidableEq Key] in
@[simp] theorem notePointer_store (state : JournalState Key) (site : Site Key) (key : Key)
    (current : Option Record)
    : (state.notePointer site key current).store = state.store := by
  rw [notePointer_eq]

def JournalLabel.commits : JournalLabel Key → Bool
  | .write _ _ _ | .other _ _ _ | .commit _ _ _ _ => true
  | _ => false

theorem store_of_step (quiet : label.commits = false)
    (taken : journalStep site state label = some next)
    : next.store = state.store := by
  cases label with
  | write _ _ _ | other _ _ _ | commit _ _ _ _ => cases quiet
  | undo covered =>
    simp only [journalStep] at taken
    split at taken
    · cases taken
      split
      · rw [nextEntry_store]
      · rfl
    · cases taken
  | read now readable =>
    simp only [journalStep] at taken
    split at taken
    · cases taken
      split
      · rfl
      split
      · rfl
      · rw [nextEntry_store]
        exact notePointer_store ..
    · cases taken
  | readInside _ _ _ | commitFails =>
    simp only [journalStep] at taken
    split at taken
    · cases taken
      rfl
    · cases taken
  | readBack readable =>
    simp only [journalStep] at taken
    split at taken
    · cases taken
      split <;> rfl
    · cases taken
  | readVersion readable =>
    simp only [journalStep] at taken
    split at taken
    · cases taken
      split
      · rfl
      · rw [nextEntry_store]
    · cases taken
  | afterFailure readable =>
    simp only [journalStep] at taken
    split at taken
    · cases taken
      rw [nextEntry_store]
      split
      · exact notePointer_store ..
      · rfl
    · cases taken
  | recheck entry readable =>
    simp only [journalStep] at taken
    split at taken
    · split at taken
      · cases taken
        split <;> rfl
      · cases taken
    · cases taken
  | recheckVersion readable =>
    simp only [journalStep] at taken
    split at taken
    · cases taken
      split
      · rfl
      · split
        · rfl
        · exact notePointer_store ..
    · cases taken

theorem JournalState.Sound.guarded (h : state.Sound) {now : Int} (at_entry : state.At entry left)
    (passes : state.guardPasses site now entry = true) {stored : Stored}
    (found : state.store entry.key = some stored)
    : state.authorOf stored.version = some .journal
      ∨ state.authorOf stored.version = some .undo := by
  simp only [JournalState.guardPasses, Bool.and_eq_true, found, Option.all_some,
    decide_eq_true_eq] at passes
  rw [passes.2, JournalState.expectedVersion]
  cases held : state.versions entry.key with
  | some version => exact Or.inr (h.versioned entry.key version held)
  | none =>
    obtain ⟨-, passed, all, -⟩ := at_entry
    have member : entry ∈ state.entries := by
      rw [← List.mem_reverse, all]
      simp
    exact Or.inl (h.journaled entry member)

theorem JournalState.Sound.replaces (h : state.Sound)
    (taken : journalStep site state label = some next) (started : state.stage ≠ .recording)
    (own : ∀ key version value, label ≠ .other key version value) {stored : Stored}
    (found : state.store key = some stored) (replaced : next.store key ≠ some stored)
    : state.authorOf stored.version = some .journal
      ∨ state.authorOf stored.version = some .undo := by
  cases label with
  | other key version value => exact absurd rfl (own key version value)
  | write version writes landed =>
    simp only [journalStep] at taken
    cases taken
  | commit now version landed resolves =>
    simp only [journalStep] at taken
    split at taken
    · rename_i entry left at_committing
      have at_entry := h.stage
      rw [at_committing] at at_entry
      split at taken
      · rename_i passes
        split at taken
        · cases taken
          by_cases same : key = entry.key
          · subst same
            exact h.guarded at_entry passes found
          have kept : (Function.update state.store entry.key
              (entry.before.map fun value => ({ value, version } : Stored))) key
              = state.store key := Function.update_of_ne same _ _
          cases landed with
          | false => exact absurd found replaced
          | true => exact absurd (kept.trans found) replaced
        · cases taken
      · cases taken
        exact absurd found (by simpa [JournalState.goto] using replaced)
    · cases taken
  | undo _ | read _ _ | readInside _ _ _ | commitFails | readBack _ | readVersion _
  | afterFailure _ | recheck _ _ | recheckVersion _ =>
    rw [store_of_step rfl taken] at replaced
    exact absurd found replaced

-- Every run

theorem sound_of_fresh (fresh : state.Fresh) : state.Sound where
  journaled := by
    intro entry member
    rw [fresh.entries] at member
    cases member
  versioned := by
    intro key version held
    rw [fresh.versions key] at held
    cases held
  distinct := by
    rw [fresh.undone]
    exact List.nodup_nil
  stage := by
    rw [fresh.recording]
    exact fresh.undone

/-- An undo that answers yes has put every journaled row back to its value before the
journal's first write of it, as far as no one else has written the row since the undo's last
read of it. And no step of an undo, in any run, replaces or deletes a row but one whose
current version was committed by the journal or by the undo itself.
-/
theorem undo_restores_or_says_no {site : Site Key} {state : JournalState Key}
    (h : (journals site).Reachable state)
    : (state.stage = .returned true
        → ∀ key entry, firstWrite state.entries key = some entry
          → state.touched key = false → state.value key = entry.before)
      ∧ ∀ label next, (journals site).step state label = some next
        → state.stage ≠ .recording → (∀ key version value, label ≠ .other key version value)
        → ∀ key stored, state.store key = some stored → next.store key ≠ some stored
          → state.authorOf stored.version = some .journal
            ∨ state.authorOf stored.version = some .undo := by
  have sound : state.Sound := by
    refine System.Reachable.invariant ?_ ?_ h
    · intro start fresh
      exact sound_of_fresh fresh
    · intro before label after held taken
      have taken : journalStep site before label = some after := taken
      exact held.step taken
  refine ⟨?_, ?_⟩
  · intro answered key entry first untouched
    have stage := sound.stage
    rw [answered] at stage
    obtain ⟨confirmed, rechecks⟩ := stage rfl
    obtain ⟨covers, restored⟩ := rechecks confirmed
    have found := covers key
    rw [List.reverse_reverse, show state.entries.find? (ownWrite key) = _ from first] at found
    obtain ⟨member, rfl⟩ := mem_of_find_key found
    exact ((restored entry member).resolve_left id) untouched
  · intro label next taken started own key stored found replaced
    exact sound.replaces taken started own found replaced

-- Two rows

def plainSite : Site String where
  known _ := true
  pointer _ := false
  dateParse _ := none

def emptyJournal : JournalState String where
  store _ := none
  authorOf _ := none
  entries := []
  confirmed := false
  pointerChanged := false
  undone := []
  versions _ := none
  touched _ := false
  stage := .recording

theorem emptyJournal_fresh : (journals plainSite).initial emptyJournal where
  recording := rfl
  entries := rfl
  undone := rfl
  versions _ := rfl
  others := by
    intro version author known
    cases known
  stored := by
    intro key stored held
    cases held

def textRow (text : String) : Option Record :=
  some (Record.ofFields [("content", .str text)])

def writeRow (version : Nat) (key text : String) : JournalLabel String :=
  .write version [⟨key, textRow text, true⟩] true

def undoEntry (version : Nat) (seen : Option Record) : List (JournalLabel String) :=
  [.read 0 true, .readInside 0 seen true, .commit 0 version true true, .readBack true,
    .readVersion true]

def created (version : Nat) (key text : String) : Entry String :=
  { key, before := none, after := textRow text, applied := true, version }

def recheckRow (version : Nat) (key text : String) : List (JournalLabel String) :=
  [.recheck (created version key text) true, .recheckVersion true]

def JournalState.answer {Key : Type u} (state : JournalState Key) : Option Bool :=
  match state.stage with
  | .returned confirmed => some confirmed
  | _ => none

omit [DecidableEq Key] in
theorem JournalState.returned_of_answer {confirmed : Bool}
    (answered : state.answer = some confirmed)
    : state.stage = .returned confirmed := by
  cases at_stage : state.stage with
  | returned other =>
    simp only [JournalState.answer, at_stage] at answered
    rw [Option.some.inj answered]
  | recording | reading _ _ | transacting _ _ | committing _ _ | readingBack _ _ _
  | readingVersion _ _ _ | failed _ _ | rechecking _ | recheckingVersion _ _ _ | threw =>
    simp [JournalState.answer, at_stage] at answered

def undoTwice : List (JournalLabel String) :=
  [writeRow 1 "a" "one", writeRow 2 "a" "two", .undo true]
    ++ undoEntry 3 (textRow "two") ++ undoEntry 4 (textRow "one") ++ recheckRow 1 "a" "one"

/-- A row that two journaled writes created and changed is absent again. -/
theorem undo_restores_or_says_no_twice
    : ∃ state, (journals plainSite).Reachable state ∧ state.stage = .returned true
      ∧ state.entries.length = 2 ∧ state.value "a" = none := by
  have runs : (((journals plainSite).run emptyJournal undoTwice).map fun state =>
      (state.entries.length, state.answer, firstWrite state.entries "a", state.touched "a"))
      = some (2, some true, some (created 1 "a" "one"), false) := by
    decide
  obtain ⟨state, run, seen⟩ := Option.map_eq_some_iff.mp runs
  simp only [Prod.mk.injEq] at seen
  obtain ⟨count, answered, first, untouched⟩ := seen
  have reached : (journals plainSite).Reachable state :=
    System.reachable_of_run emptyJournal_fresh run
  have stage := JournalState.returned_of_answer answered
  refine ⟨state, reached, stage, count, ?_⟩
  exact (undo_restores_or_says_no reached).1 stage "a" _ first untouched

/-- Two rows created and undone, where someone else writes one between its recheck and that of
the other.
-/
def undoBeside : List (JournalLabel String) :=
  [writeRow 1 "a" "one", writeRow 2 "b" "two", .undo true]
    ++ undoEntry 3 (textRow "two") ++ undoEntry 4 (textRow "one") ++ recheckRow 2 "b" "two"
    ++ [.other "b" 5 (textRow "three")] ++ recheckRow 1 "a" "one"

/-- An undo that answers yes with a row the journal created still there, by another writer. -/
theorem answered_yes_beside_new_row
    : ∃ state, (journals plainSite).Reachable state ∧ state.stage = .returned true
      ∧ firstWrite state.entries "b" = some (created 2 "b" "two")
      ∧ state.value "b" = textRow "three" := by
  have runs : (((journals plainSite).run emptyJournal undoBeside).map fun state =>
      (state.answer, firstWrite state.entries "b", state.value "b"))
      = some (some true, some (created 2 "b" "two"), textRow "three") := by
    decide
  obtain ⟨state, run, seen⟩ := Option.map_eq_some_iff.mp runs
  simp only [Prod.mk.injEq] at seen
  obtain ⟨answered, first, kept⟩ := seen
  exact ⟨state, System.reachable_of_run emptyJournal_fresh run,
    JournalState.returned_of_answer answered, first, kept⟩

end Flair.Journal
