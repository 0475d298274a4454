import Flair.Continuity.SessionFiles

/-! The seqs that continuity bumps return. A bump that renames over the state it has read
returns a new seq and only raises the stored one; a bump that does not may return a seq twice
or lower the stored one, and two pairs may share a file name.
-/

namespace Flair.Continuity

open Transition

@[simp] theorem content_gotoCall (dir : SessionDir) (call : Nat) (stage : CallStage)
    (path : String)
    : (dir.gotoCall call stage).content path = dir.content path := rfl

@[simp] theorem content_gotoSeed (dir : SessionDir) (seed : Nat) (stage : SeedStage)
    (path : String)
    : (dir.gotoSeed seed stage).content path = dir.content path := rfl

@[simp] theorem content_record (dir : SessionDir) (event : SeqEvent) (path : String)
    : (dir.record event).content path = dir.content path := rfl

theorem content_put (dir : SessionDir) (written : String) (file : StateFile) (path : String)
    : (dir.put written file).content path
      = if path = written then file.content else dir.content path := by
  by_cases same : path = written
  · subst same
    simp [SessionDir.content, SessionDir.put]
  · simp [SessionDir.content, SessionDir.put, same]

theorem call_gotoCall (dir : SessionDir) (call other : Nat) (stage : CallStage)
    : (dir.gotoCall call stage).call other = if other = call then stage else dir.call other := by
  simp [SessionDir.gotoCall, Function.update_apply]

theorem seed_gotoSeed (dir : SessionDir) (seed other : Nat) (stage : SeedStage)
    : (dir.gotoSeed seed stage).seed other = if other = seed then stage else dir.seed other := by
  simp [SessionDir.gotoSeed, Function.update_apply]

@[simp] theorem log_put (dir : SessionDir) (path : String) (file : StateFile)
    : (dir.put path file).log = dir.log := rfl

@[simp] theorem log_record (dir : SessionDir) (event : SeqEvent)
    : (dir.record event).log = event :: dir.log := rfl

@[simp] theorem files_record (dir : SessionDir) (event : SeqEvent)
    : (dir.record event).files = dir.files := rfl

theorem files_put (dir : SessionDir) (written : String) (file : StateFile) (path : String)
    : (dir.put written file).files path = if path = written then file else dir.files path := by
  simp [SessionDir.put, Function.update_apply]

theorem returnedSince_returned (pair other : Pair) (seq : Nat) (rest : List SeqEvent)
    : returnedSince pair (.returned other seq :: rest)
      = if other = pair then seq :: returnedSince pair rest else returnedSince pair rest := rfl

theorem returnedSince_seeded (pair other : Pair) (rest : List SeqEvent)
    : returnedSince pair (.seeded other :: rest)
      = if other = pair then [] else returnedSince pair rest := rfl

-- The invariant

def CallSound : CallStage → Prop
  | .read pair current => current.pair = pair
  | .staged pair current next =>
    current.pair = pair ∧ next.pair = pair ∧ next.seq = current.seq + 1
  | _ => True

/-- What a seeding holds. While the path keeps the inode it opened, nothing has been returned
since the pair's last seeding and the file holds no later seq than the seeding's.
-/
def SeedSound (dir : SessionDir) : SeedStage → Prop
  | .started pair state => state.pair = pair ∧ state.seq = 0
  | .opened pair inode state =>
    state.pair = pair ∧ state.seq = 0 ∧ inode ≤ (dir.files (statePath pair)).inode
      ∧ ((dir.files (statePath pair)).inode = inode
        → returnedSince pair dir.log = []
          ∧ ∀ held, dir.content (statePath pair) = .holds held → held.seq = 0)
  | _ => True

structure DirInvariant (dir : SessionDir) : Prop where
  names : ∀ pair, Used dir pair → OwnName dir pair
  owners : ∀ path state, dir.content path = .holds state
    → Used dir state.pair ∧ statePath state.pair = path
  calls : ∀ call, CallSound (dir.call call)
  seeds : ∀ seed, SeedSound dir (dir.seed seed)
  counted : ∀ pair state, dir.content (statePath pair) = .holds state
    → ∀ seq ∈ returnedSince pair dir.log, seq ≤ state.seq
  distinct : ∀ pair, (returnedSince pair dir.log).Nodup
  logged : ∀ pair, returned pair dir.log ≠ [] → Used dir pair

variable {dir : SessionDir} {pair : Pair}

theorem DirInvariant.own (holds : DirInvariant dir) {state : SessionState} (used : Used dir pair)
    (held : dir.content (statePath pair) = .holds state)
    : state.pair = pair := by
  obtain ⟨usedBy, same⟩ := holds.owners _ state held
  exact holds.names pair used state.pair usedBy same

theorem returnedSince_subset (pair : Pair) (log : List SeqEvent)
    : (returnedSince pair log).Sublist (returned pair log) := by
  induction log with
  | nil => exact .slnil
  | cons event rest ih =>
    cases event with
    | seeded other =>
      simp only [returnedSince, returned]
      split
      · exact List.nil_sublist _
      · exact ih
    | returned other seq =>
      simp only [returnedSince, returned]
      split
      · exact ih.cons_cons seq
      · exact ih

variable {call : Nat} {stage : CallStage}

theorem DirInvariant.names_insert {next : SessionDir} (holds : DirInvariant dir)
    (own : OwnName dir pair) (used : ∀ other, Used next other ↔ Used dir other ∨ other = pair)
    (first : Pair) (usedFirst : Used next first)
    : OwnName next first := by
  intro second usedSecond same
  rcases (used first).mp usedFirst with inUse | rfl
  · rcases (used second).mp usedSecond with later | rfl
    · exact holds.names first inUse second later same
    · exact (own first inUse same.symm).symm
  · rcases (used second).mp usedSecond with later | rfl
    · exact own second later same
    · rfl

theorem DirInvariant.gotoCall (holds : DirInvariant dir) (its : stage.pair? = some pair)
    (own : OwnName dir pair) (kept : ∀ other, (dir.call call).pair? = some other → other = pair)
    (sound : CallSound stage)
    : DirInvariant (dir.gotoCall call stage) := by
  have used : ∀ other, Used (dir.gotoCall call stage) other ↔ Used dir other ∨ other = pair := by
    intro other
    constructor
    · rintro (⟨at_, mine⟩ | seeding)
      · rw [call_gotoCall] at mine
        split at mine
        · exact .inr (Option.some.inj (mine.symm.trans its))
        · exact .inl (.inl ⟨at_, mine⟩)
      · exact .inl (.inr seeding)
    · rintro ((⟨at_, mine⟩ | seeding) | rfl)
      · by_cases same : at_ = call
        · subst same
          refine .inl ⟨at_, ?_⟩
          rw [call_gotoCall, if_pos rfl, its, kept other mine]
        · exact .inl ⟨at_, by rw [call_gotoCall, if_neg same]; exact mine⟩
      · exact .inr seeding
      · exact .inl ⟨call, by rw [call_gotoCall, if_pos rfl]; exact its⟩
  refine {
    names := holds.names_insert own used
    owners := fun path state held => ?_
    calls := fun other => ?_
    seeds := holds.seeds
    counted := holds.counted
    distinct := holds.distinct
    logged := fun other some => (used other).mpr (.inl (holds.logged other some)) }
  · obtain ⟨inUse, same⟩ := holds.owners path state held
    exact ⟨(used _).mpr (.inl inUse), same⟩
  · rw [call_gotoCall]
    split
    · exact sound
    · exact holds.calls other

variable {seed : Nat}

theorem DirInvariant.gotoSeed (holds : DirInvariant dir) {stage : SeedStage}
    (its : stage.pair? = some pair) (own : OwnName dir pair)
    (kept : ∀ other, (dir.seed seed).pair? = some other → other = pair)
    (sound : SeedSound dir stage)
    : DirInvariant (dir.gotoSeed seed stage) := by
  have used : ∀ other, Used (dir.gotoSeed seed stage) other ↔ Used dir other ∨ other = pair := by
    intro other
    constructor
    · rintro (calling | ⟨at_, mine⟩)
      · exact .inl (.inl calling)
      rw [seed_gotoSeed] at mine
      split at mine
      · exact .inr (Option.some.inj (mine.symm.trans its))
      · exact .inl (.inr ⟨at_, mine⟩)
    · rintro ((calling | ⟨at_, mine⟩) | rfl)
      · exact .inl calling
      · by_cases same : at_ = seed
        · subst same
          refine .inr ⟨at_, ?_⟩
          rw [seed_gotoSeed, if_pos rfl, its, kept other mine]
        · exact .inr ⟨at_, by rw [seed_gotoSeed, if_neg same]; exact mine⟩
      · exact .inr ⟨seed, by rw [seed_gotoSeed, if_pos rfl]; exact its⟩
  refine {
    names := holds.names_insert own used
    owners := fun path state held => ?_
    calls := holds.calls
    seeds := fun other => ?_
    counted := holds.counted
    distinct := holds.distinct
    logged := fun other some => (used other).mpr (.inl (holds.logged other some)) }
  · obtain ⟨inUse, same⟩ := holds.owners path state held
    exact ⟨(used _).mpr (.inl inUse), same⟩
  · rw [seed_gotoSeed]
    split
    · exact sound
    · exact holds.seeds other

theorem DirInvariant.returnedSince_eq_nil (holds : DirInvariant dir) {other : Pair}
    (used : Used dir pair) (same : statePath other = statePath pair) (apart : other ≠ pair)
    : returnedSince other dir.log = [] := by
  by_contra some
  have logged : returned other dir.log ≠ [] := by
    intro none
    have within := returnedSince_subset other dir.log
    rw [none] at within
    exact some (List.sublist_nil.mp within)
  exact apart (holds.names pair used other (holds.logged other logged) same)

section

variable {dir : SessionDir} {pair : Pair}

/-- A write over the pair's file that either moves to a later inode or leaves nothing returned
and a seq of zero keeps what every seeding holds.
-/
theorem DirInvariant.seeds_kept {next : SessionDir} (holds : DirInvariant dir)
    (used : Used dir pair) (same : next.seed = dir.seed)
    (elsewhere : ∀ other, statePath other ≠ statePath pair
      → next.files (statePath other) = dir.files (statePath other)
        ∧ returnedSince other next.log = returnedSince other dir.log)
    (grown : (dir.files (statePath pair)).inode ≤ (next.files (statePath pair)).inode)
    (kept : (next.files (statePath pair)).inode = (dir.files (statePath pair)).inode
      → returnedSince pair next.log = []
        ∧ ∀ held, next.content (statePath pair) = .holds held → held.seq = 0)
    (seed : Nat)
    : SeedSound next (next.seed seed) := by
  have before := holds.seeds seed
  rw [same]
  cases stage : dir.seed seed with
  | opened other inode state =>
    rw [stage] at before
    obtain ⟨its, zero, le, since⟩ := before
    by_cases here : statePath other = statePath pair
    · have seeding : Used dir other := .inr ⟨seed, by rw [stage]; rfl⟩
      obtain rfl := holds.names pair used other seeding here
      exact ⟨its, zero, Nat.le_trans le grown,
        fun unmoved => kept (Nat.le_antisymm (unmoved ▸ le) grown)⟩
    · obtain ⟨files, log⟩ := elsewhere other here
      simp only [SeedSound, SessionDir.content, files, log]
      exact ⟨its, zero, le, since⟩
  | idle | ended other => trivial
  | started other state =>
    rw [stage] at before
    exact before

theorem DirInvariant.renamed {current next : SessionState} (holds : DirInvariant dir)
    (used : Used dir pair) (same : next.pair = pair) (seq : next.seq = current.seq + 1)
    (held : dir.content (statePath pair) = .holds current)
    : DirInvariant ((dir.put (statePath pair)
        { inode := (dir.files (statePath pair)).inode + 1, content := .holds next }).record
          (.returned pair next.seq)) where
  names := holds.names
  owners path state found := by
    rw [content_record, content_put] at found
    split at found
    case isTrue here =>
      obtain rfl := FileContent.holds.inj found
      exact ⟨same ▸ used, by rw [same, here]⟩
    · exact holds.owners path state found
  calls := holds.calls
  seeds := by
    refine holds.seeds_kept used rfl (fun other there => ?_) ?_ ?_
    · rw [files_record, files_put, if_neg there, log_record, log_put, returnedSince_returned,
        if_neg fun equal : pair = other => there (equal ▸ rfl)]
      exact ⟨rfl, rfl⟩
    · rw [files_record, files_put, if_pos rfl]
      exact Nat.le_succ _
    · rw [files_record, files_put, if_pos rfl]
      exact fun moved => absurd moved (Nat.succ_ne_self _)
  counted other state found entry member := by
    rw [content_record, content_put] at found
    split at found
    case isTrue here =>
      obtain rfl := FileContent.holds.inj found
      by_cases its : pair = other
      · subst its
        rw [log_record, log_put, returnedSince_returned, if_pos rfl] at member
        rcases List.mem_cons.mp member with rfl | earlier
        · exact Nat.le_refl _
        · have bound := holds.counted pair current held entry earlier
          omega
      · rw [log_record, log_put, returnedSince_returned, if_neg its,
          holds.returnedSince_eq_nil used here (Ne.symm its)] at member
        contradiction
    case isFalse there =>
      have its : pair ≠ other := fun equal => there (equal ▸ rfl)
      rw [log_record, log_put, returnedSince_returned, if_neg its] at member
      exact holds.counted other state found entry member
  distinct other := by
    by_cases its : pair = other
    · subst its
      rw [log_record, log_put, returnedSince_returned, if_pos rfl]
      refine List.nodup_cons.mpr ⟨fun earlier => ?_, holds.distinct pair⟩
      have bound := holds.counted pair current held _ earlier
      omega
    · rw [log_record, log_put, returnedSince_returned, if_neg its]
      exact holds.distinct other
  logged other some := by
    by_cases its : pair = other
    · exact its ▸ used
    · rw [log_record, log_put, returned, if_neg its] at some
      exact holds.logged other some

theorem DirInvariant.truncated (holds : DirInvariant dir) (used : Used dir pair)
    : DirInvariant ((dir.put (statePath pair)
        { inode := (dir.files (statePath pair)).inode, content := .torn }).record
          (.seeded pair)) where
  names := holds.names
  owners path state found := by
    rw [content_record, content_put] at found
    split at found
    · contradiction
    · exact holds.owners path state found
  calls := holds.calls
  seeds := by
    refine holds.seeds_kept used rfl (fun other there => ?_) ?_ fun _ => ⟨if_pos rfl, ?_⟩
    · rw [files_record, files_put, if_neg there, log_record, log_put, returnedSince_seeded,
        if_neg fun equal : pair = other => there (equal ▸ rfl)]
      exact ⟨rfl, rfl⟩
    · simp [files_put]
    · intro state found
      rw [content_record, content_put, if_pos rfl] at found
      contradiction
  counted other state found entry member := by
    rw [content_record, content_put] at found
    split at found
    · contradiction
    case isFalse there =>
      have its : pair ≠ other := fun equal => there (equal ▸ rfl)
      rw [log_record, log_put, returnedSince_seeded, if_neg its] at member
      exact holds.counted other state found entry member
  distinct other := by
    by_cases its : pair = other
    · rw [log_record, log_put, returnedSince_seeded, if_pos its]
      exact List.nodup_nil
    · rw [log_record, log_put, returnedSince_seeded, if_neg its]
      exact holds.distinct other
  logged := holds.logged

theorem DirInvariant.seeded {state : SessionState} (holds : DirInvariant dir)
    (used : Used dir pair) (same : state.pair = pair) (zero : state.seq = 0)
    (fresh : returnedSince pair dir.log = [])
    : DirInvariant (dir.put (statePath pair)
        { inode := (dir.files (statePath pair)).inode, content := .holds state }) where
  names := holds.names
  owners path found_ found := by
    rw [content_put] at found
    split at found
    case isTrue here =>
      obtain rfl := FileContent.holds.inj found
      exact ⟨same ▸ used, by rw [same, here]⟩
    · exact holds.owners path found_ found
  calls := holds.calls
  seeds := by
    refine holds.seeds_kept used rfl (fun other there => ?_) ?_ fun _ => ⟨fresh, ?_⟩
    · rw [files_put, if_neg there]
      exact ⟨rfl, rfl⟩
    · simp [files_put]
    · intro held found
      rw [content_put, if_pos rfl] at found
      exact FileContent.holds.inj found ▸ zero
  counted other found_ found entry member := by
    rw [content_put] at found
    split at found
    case isTrue here =>
      by_cases its : other = pair
      · rw [its] at member
        exact absurd (fresh ▸ member) List.not_mem_nil
      · exact absurd (holds.returnedSince_eq_nil used here its ▸ member) List.not_mem_nil
    · exact holds.counted other found_ found entry member
  distinct := holds.distinct
  logged := holds.logged

end

-- Steps and runs

theorem used_of_call (here : dir.call call = stage) (its : stage.pair? = some pair)
    : Used dir pair :=
  .inl ⟨call, by rw [here, its]⟩

theorem used_of_seed {stage : SeedStage} (here : dir.seed seed = stage)
    (its : stage.pair? = some pair)
    : Used dir pair :=
  .inr ⟨seed, by rw [here, its]⟩

theorem DirInvariant.advance (holds : DirInvariant dir) {before : CallStage}
    (here : dir.call call = before) (was : before.pair? = some pair) (its : stage.pair? = some pair)
    (sound : CallSound stage)
    : DirInvariant (dir.gotoCall call stage) := by
  refine holds.gotoCall its (holds.names pair (used_of_call here was)) ?_ sound
  intro other mine
  rw [here, was] at mine
  exact (Option.some.inj mine).symm

theorem DirInvariant.advanceSeed (holds : DirInvariant dir) {before stage : SeedStage}
    (here : dir.seed seed = before) (was : before.pair? = some pair) (its : stage.pair? = some pair)
    (sound : SeedSound dir stage)
    : DirInvariant (dir.gotoSeed seed stage) := by
  refine holds.gotoSeed its (holds.names pair (used_of_seed here was)) ?_ sound
  intro other mine
  rw [here, was] at mine
  exact (Option.some.inj mine).symm

theorem pair?_afterRead (pair : Pair) (readable : Bool) (content : FileContent)
    : (afterRead pair readable content).pair? = some pair := by
  unfold afterRead
  split
  · rfl
  · rfl
  · split <;> rfl

variable {next : SessionDir} {label : FileLabel}

theorem callStep_keeps (holds : DirInvariant dir) (serial : Serial dir label)
    (taken : callStep dir label = some next)
    : DirInvariant next := by
  cases label with
  | begin call pair =>
    simp only [callStep] at taken
    split at taken
    case h_1 idle =>
      split at taken
      · cases taken
        refine holds.gotoCall rfl serial ?_ trivial
        intro other mine
        rw [idle] at mine
        contradiction
      · contradiction
    · contradiction
  | read call readable =>
    simp only [callStep] at taken
    split at taken
    case h_1 pair started =>
      cases taken
      refine holds.advance started rfl (pair?_afterRead pair readable _) ?_
      cases held : dir.content (statePath pair) with
      | absent | torn => trivial
      | holds current =>
        have own := holds.own (used_of_call started rfl) held
        cases readable with
        | true => exact own
        | false => trivial
    · contradiction
  | stage call updatedAt written =>
    simp only [callStep] at taken
    split at taken
    case h_1 pair current read =>
      have sound := holds.calls call
      rw [read] at sound
      split at taken <;> cases taken
      · exact holds.advance read rfl rfl ⟨sound, sound, rfl⟩
      · exact holds.advance read rfl rfl trivial
    · contradiction
  | rename call renamed =>
    simp only [callStep] at taken
    split at taken
    case h_1 pair current next staged =>
      have sound := holds.calls call
      rw [staged] at sound
      obtain ⟨-, same, seq⟩ := sound
      split at taken <;> cases taken
      case isTrue here =>
        subst here
        have held := serial pair current next staged
        have used := used_of_call staged rfl
        exact (holds.renamed used same seq held).advance staged rfl rfl trivial
      · exact holds.advance staged rfl rfl trivial
    · contradiction
  | _ => contradiction

theorem seedStep_keeps (holds : DirInvariant dir) (serial : Serial dir label)
    (taken : seedStep dir label = some next)
    : DirInvariant next := by
  cases label with
  | beginSeed seed pair sessionId processUUID updatedAt =>
    simp only [seedStep] at taken
    split at taken
    case h_1 idle =>
      split at taken
      · cases taken
        refine holds.gotoSeed rfl serial ?_ ⟨rfl, rfl⟩
        intro other mine
        rw [idle] at mine
        contradiction
      · contradiction
    · contradiction
  | «open» seed opened =>
    simp only [seedStep] at taken
    split at taken
    case h_1 pair state started =>
      have sound := holds.seeds seed
      rw [started] at sound
      split at taken <;> cases taken
      · refine (holds.truncated (used_of_seed started rfl)).advanceSeed started rfl rfl ?_
        refine ⟨sound.1, sound.2, by simp [files_put], fun _ => ⟨?_, ?_⟩⟩
        · rw [log_record, returnedSince_seeded, if_pos rfl]
        · intro held found
          rw [content_record, content_put, if_pos rfl] at found
          contradiction
      · exact holds.advanceSeed started rfl rfl trivial
    · contradiction
  | write seed written =>
    simp only [seedStep] at taken
    split at taken
    case h_1 pair inode state opened =>
      have sound := holds.seeds seed
      rw [opened] at sound
      obtain ⟨same, zero, -, since⟩ := sound
      split at taken <;> cases taken
      case isTrue here =>
        rw [Bool.and_eq_true, decide_eq_true_eq] at here
        obtain ⟨-, rfl⟩ := here
        exact (holds.seeded (used_of_seed opened rfl) same zero (since rfl).1).advanceSeed opened
          rfl rfl trivial
      · exact holds.advanceSeed opened rfl rfl trivial
    · contradiction
  | _ => contradiction

theorem continuity_keeps (holds : DirInvariant dir) (serial : Serial dir label)
    (taken : continuity.step dir label = some next)
    : DirInvariant next := by
  rcases Option.or_eq_some_iff.mp taken with call | ⟨-, seed⟩
  · exact callStep_keeps holds serial call
  · exact seedStep_keeps holds serial seed

theorem dirInvariant_initial (initial : continuity.initial dir)
    : DirInvariant dir := by
  obtain ⟨absent, idle, unseeded, empty⟩ := initial
  have unused : ∀ pair, ¬ Used dir pair := by
    rintro pair (⟨call, its⟩ | ⟨seed, its⟩)
    · rw [idle call] at its
      contradiction
    · rw [unseeded seed] at its
      contradiction
  refine {
    names := fun pair used => absurd used (unused pair)
    owners := fun path state held => ?_
    calls := fun call => ?_
    seeds := fun seed => ?_
    counted := fun pair state held => ?_
    distinct := fun pair => ?_
    logged := fun pair some => ?_ }
  · rw [absent path] at held
    contradiction
  · rw [idle call]
    trivial
  · rw [unseeded seed]
    trivial
  · rw [absent] at held
    contradiction
  · rw [empty]
    exact List.nodup_nil
  · rw [empty] at some
    exact absurd rfl some

theorem continuity_invariant (run : continuity.ReachableUnder Serial dir)
    : DirInvariant dir :=
  run.invariant (fun _ initial => dirInvariant_initial initial)
    fun _ _ _ holds serial taken => continuity_keeps holds serial taken

theorem seq_kept {path : String} {state : SessionState} (holds : DirInvariant dir)
    (serial : Serial dir label) (taken : continuity.step dir label = some next)
    (bump : ∀ seed opened, label ≠ .open seed opened) (held : dir.content path = .holds state)
    : ∃ later, next.content path = .holds later ∧ state.seq ≤ later.seq := by
  have same : ∀ after : SessionDir, after.content path = dir.content path
      → ∃ later, after.content path = .holds later ∧ state.seq ≤ later.seq :=
    fun after equal => ⟨state, equal.trans held, Nat.le_refl _⟩
  rcases Option.or_eq_some_iff.mp taken with call | ⟨-, seed⟩
  · cases label with
    | rename call_ renamed =>
      simp only [callStep] at call
      split at call
      case h_1 pair current staged stage =>
        have sound := holds.calls call_
        rw [stage] at sound
        split at call <;> cases call
        case isTrue here =>
          subst here
          have read := serial pair current staged stage
          by_cases its : path = statePath pair
          · subst its
            obtain rfl := FileContent.holds.inj (read.symm.trans held)
            refine ⟨staged, by simp [content_put], ?_⟩
            rw [sound.2.2]
            exact Nat.le_succ _
          · exact same _ (by simp [content_put, its])
        · exact same _ rfl
      · contradiction
    | begin _ _ | read _ _ | stage _ _ _ =>
      simp only [callStep] at call
      split at call
      · first
        | (obtain rfl := Option.some.inj call; exact same _ rfl)
        | (split at call <;> first | contradiction | (obtain rfl := Option.some.inj call; exact same _ rfl))
      · contradiction
    | _ => contradiction
  · cases label with
    | «open» seed_ opened => exact absurd rfl (bump seed_ opened)
    | write seed_ written =>
      simp only [seedStep] at seed
      split at seed
      case h_1 pair inode staged stage =>
        have sound := holds.seeds seed_
        rw [stage] at sound
        split at seed <;> cases seed
        case isTrue here =>
          rw [Bool.and_eq_true, decide_eq_true_eq] at here
          by_cases its : path = statePath pair
          · subst its
            have zero := (sound.2.2.2 here.2).2 state held
            exact ⟨staged, by simp [content_put], by omega⟩
          · exact same _ (by simp [content_put, its])
        · exact same _ rfl
      · contradiction
    | beginSeed _ _ _ _ _ =>
      simp only [seedStep] at seed
      split at seed
      · split at seed
        · cases seed
          exact same _ rfl
        · contradiction
      · contradiction
    | _ => contradiction

def SeededBefore (pair : Pair) (dir : SessionDir) : Prop :=
  returned pair dir.log = returnedSince pair dir.log

theorem returned_eq_of_seedsFirst
    (run : continuity.ReachableUnder
      (fun before label => Serial before label ∧ SeedsFirst before label) dir)
    (pair : Pair)
    : returned pair dir.log = returnedSince pair dir.log := by
  have initially : ∀ start, continuity.initial start → SeededBefore pair start := by
    rintro start ⟨-, -, -, empty⟩
    rw [SeededBefore, empty]
    rfl
  refine run.invariant initially ?_
  · unfold SeededBefore
    rintro before label after same ⟨-, first⟩ taken
    rcases Option.or_eq_some_iff.mp taken with call | ⟨-, seed⟩
    · cases label with
      | rename call_ renamed =>
        simp only [callStep] at call
        split at call
        · split at call <;> cases call
          · simp only [SessionDir.gotoCall, log_record, log_put, returned, returnedSince]
            rw [same]
          · exact same
        · contradiction
      | begin _ _ | read _ _ | stage _ _ _ =>
        simp only [callStep] at call
        split at call
        · first
          | (obtain rfl := Option.some.inj call; exact same)
          | (split at call <;> first | contradiction | (obtain rfl := Option.some.inj call; exact same))
        · contradiction
      | _ => contradiction
    · cases label with
      | «open» seed_ opened =>
        simp only [seedStep] at seed
        split at seed
        case h_1 other state started =>
          split at seed <;> cases seed
          · simp only [SessionDir.gotoSeed, log_record, log_put, returned, returnedSince]
            split
            case isTrue its =>
              subst its
              exact first _ state started
            · exact same
          · exact same
        · contradiction
      | write _ _ | beginSeed _ _ _ _ _ =>
        simp only [seedStep] at seed
        split at seed
        · split at seed <;> first
            | contradiction
            | (obtain rfl := Option.some.inj seed; exact same)
        · contradiction
      | _ => contradiction

end Flair.Continuity
