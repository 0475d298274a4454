import Flair.Foundations.CanonicalJson
import Flair.Foundations.Systems

/-! Search-hit counters kept beside the Memory rows: hits gather in memory, one flush an id
adds them to its row, and reads keep a copy of it. Follows `resources/hit-tracking.ts`.
-/

namespace Flair.Usage

open Transition Dynamic

-- What is kept for an id

structure Pending where
  delta : Nat
  lastRetrieved : String
deriving DecidableEq

structure HitStatRow where
  retrievalCount : Nat
  lastRetrieved : Option String
deriving DecidableEq

/-- Where the flush of an id is: before its get of the stat row, before the Memory get that a
miss needs, before its put takes effect, or before the answer to a put that did.
-/
inductive FlushStage where
  | idle
  | reading (taken : Pending)
  | seeding (taken : Pending)
  | putting (taken : Pending) (row : HitStatRow)
  | committed (taken : Pending) (row : HitStatRow)
deriving DecidableEq

/-- What the tracker and the tables hold for one id, and its history from `base` on. A read of
`statFor` under way holds the row it got and the number of puts before that.
-/
structure HitEntry where
  pending : Option Pending
  queued : Nat
  flush : FlushStage
  cache : Option HitStatRow
  stat : Option HitStatRow
  memory : Option Nat
  reads : Nat → Option (Nat × HitStatRow)
  deletes : Nat
  base : Nat
  noted : Nat
  latest : Nat
  puts : Nat
  cleared : Bool
  rewritten : Bool
  seen : List Nat

def HitEntry.stored (entry : HitEntry) : Nat :=
  match entry.stat with
  | some row => row.retrievalCount
  | none => entry.memory.getD 0

-- Steps

inductive HitStep where
  | note (now : String)
  | enqueueFlush
  | takePending
  | readStat (ok : Bool)
  | readMemory (ok : Bool)
  | commitPut
  | answerPut (ok : Bool)
  | readCache
  | beginRead (read : Nat)
  | endRead (read : Nat)
  | clear
  | delete (ok : Bool)

def HitEntry.requeue (entry : HitEntry) (taken : Pending) : HitEntry :=
  { entry with
    flush := .idle
    pending := some (match entry.pending with
      | some again => ⟨again.delta + taken.delta,
          if textLe taken.lastRetrieved again.lastRetrieved then again.lastRetrieved
          else taken.lastRetrieved⟩
      | none => taken) }

/-- `noteHits` for one of its ids: the hit, and a flush behind those of the id. -/
def HitEntry.note (entry : HitEntry) (now : String) : HitEntry :=
  { entry with
    noted := entry.noted + 1
    queued := entry.queued + 1
    pending := some (match entry.pending with
      | some prev => ⟨prev.delta + 1, now⟩
      | none => ⟨1, now⟩) }

def rowOver (base : Nat) (taken : Pending) : HitStatRow :=
  ⟨base + taken.delta, some taken.lastRetrieved⟩

/-- One step of the tracker at an id: between two awaits of its code, or of a table. -/
def hitStep (entry : HitEntry) : HitStep → Option HitEntry
  | .note now => some (entry.note now)
  | .enqueueFlush =>
    if entry.pending.isSome then some { entry with queued := entry.queued + 1 } else none
  | .takePending =>
    match entry.flush, entry.queued, entry.pending with
    | .idle, queued + 1, some taken =>
      some { entry with queued, pending := none, flush := .reading taken }
    | .idle, queued + 1, none => some { entry with queued }
    | _, _, _ => none
  | .readStat ok =>
    match entry.flush with
    | .reading taken =>
      if ok then
        match entry.stat with
        | some row =>
          some { entry with flush := .putting taken (rowOver row.retrievalCount taken) }
        | none => some { entry with flush := .seeding taken }
      else some (entry.requeue taken)
    | _ => none
  | .readMemory ok =>
    match entry.flush with
    | .seeding taken =>
      some { entry with
        flush := .putting taken (rowOver (if ok then entry.memory.getD 0 else 0) taken) }
    | _ => none
  | .commitPut =>
    match entry.flush with
    | .putting taken row =>
      some { entry with
        flush := .committed taken row
        stat := some row
        latest := row.retrievalCount
        puts := entry.puts + 1
        rewritten := entry.rewritten || entry.cleared }
    | _ => none
  | .answerPut ok =>
    match entry.flush with
    | .putting taken _ => if ok then none else some (entry.requeue taken)
    | .committed taken row =>
      if ok then some { entry with flush := .idle, cache := some row }
      else some (entry.requeue taken)
    | _ => none
  | .readCache =>
    entry.cache.map fun row => { entry with seen := row.retrievalCount :: entry.seen }
  | .beginRead read =>
    if entry.cache.isSome then none
    else some { entry with
      reads := Function.update entry.reads read (entry.stat.map fun row => (entry.puts, row)) }
  | .endRead read =>
    (entry.reads read).map fun (_, row) => { entry with
      reads := Function.update entry.reads read none
      cache := some row
      seen := row.retrievalCount :: entry.seen }
  | .clear =>
    some { entry with
      pending := none, cache := none, cleared := true, deletes := entry.deletes + 1 }
  | .delete ok =>
    match entry.deletes with
    | 0 => none
    | deletes + 1 => some { entry with deletes, stat := if ok then none else entry.stat }

structure HitEntry.Fresh (entry : HitEntry) : Prop where
  pending : entry.pending = none
  queued : entry.queued = 0
  flush : entry.flush = .idle
  cache : entry.cache = none
  reads : ∀ read, entry.reads read = none
  deletes : entry.deletes = 0
  base : entry.base = entry.stored
  noted : entry.noted = 0
  latest : entry.latest = (entry.stat.map HitStatRow.retrievalCount).getD 0
  cleared : entry.cleared = false
  rewritten : entry.rewritten = false
  seen : entry.seen = []

def hitTracker : System (String → HitEntry) (String × HitStep) where
  initial entries := ∀ id, (entries id).Fresh
  step entries label := (hitStep (entries label.1) label.2).map (Function.update entries label.1)

def HitEntry.Idle (entry : HitEntry) : Prop :=
  entry.pending = none ∧ entry.queued = 0 ∧ entry.flush = .idle

/-- The hits of an idle id are all in its stored count, the counts seen for it never fall, and
no put follows a clear of it.
-/
structure HitEntry.Conserved (entry : HitEntry) : Prop where
  counted : entry.Idle → entry.cleared = false → entry.stored = entry.base + entry.noted
  steady : entry.seen.Pairwise fun newer older => older ≤ newer
  dead : entry.rewritten = false

-- Orderly steps

/-- No hit is noted for a cleared id, and none of its flushes is under way at a clear; the
Memory get of a flush fails only for a row with no count, a put fails only without effect, and
no put took effect since a read of `statFor` that is answered with a row.
-/
def HitEntry.orderly (entry : HitEntry) : HitStep → Bool
  | .note _ => !entry.cleared
  | .readMemory ok => ok || entry.memory.getD 0 == 0
  | .answerPut ok => ok || (match entry.flush with | .committed _ _ => false | _ => true)
  | .endRead read => (entry.reads read).all fun (puts, _) => puts == entry.puts
  | .clear => decide (entry.flush = .idle)
  | _ => true

@[simp] def FlushStage.owed : FlushStage → Nat
  | .reading taken | .seeding taken | .putting taken _ => taken.delta
  | .idle | .committed _ _ => 0

@[simp] def HitEntry.StageKnows (entry : HitEntry) : FlushStage → Prop
  | .idle | .reading _ => True
  | .seeding _ => entry.stat = none
  | .putting taken row => row.retrievalCount = entry.stored + taken.delta
  | .committed _ row => entry.stat = some row

structure HitEntry.Counts (entry : HitEntry) : Prop where
  conserved :
    entry.cleared = false
      → entry.stored + entry.flush.owed + (entry.pending.map Pending.delta).getD 0
        = entry.base + entry.noted
  knows : entry.StageKnows entry.flush
  quiet : entry.cleared = true → entry.flush = .idle ∧ entry.pending = none
  deletes : 0 < entry.deletes → entry.cleared = true
  least : entry.cleared = false → entry.latest ≤ entry.stored
  top : ∀ row, entry.stat = some row → row.retrievalCount = entry.latest
  dead : entry.rewritten = false

structure HitEntry.Sees (entry : HitEntry) : Prop where
  reads :
    ∀ read puts row, entry.reads read = some (puts, row)
      → puts ≤ entry.puts ∧ (puts = entry.puts → row.retrievalCount = entry.latest)
  cached :
    ∀ row, entry.cache = some row
      → row.retrievalCount ≤ entry.latest ∧ ∀ count ∈ entry.seen, count ≤ row.retrievalCount
  seen : ∀ count ∈ entry.seen, count ≤ entry.latest
  steady : entry.seen.Pairwise fun newer older => older ≤ newer

variable {entry after : HitEntry}

theorem HitEntry.Counts.requeue {taken : Pending} (h : entry.Counts)
    (owed : entry.flush.owed = taken.delta) (busy : entry.flush ≠ .idle)
    : (entry.requeue taken).Counts := by
  refine ⟨fun live => ?_, trivial, fun cleared => absurd (h.quiet cleared).1 busy, h.deletes,
    h.least, h.top, h.dead⟩
  have conserved := h.conserved live
  cases waiting : entry.pending with
  | none | some again =>
    simp only [waiting, Option.map_some, Option.map_none, Option.getD_some, Option.getD_none]
      at conserved
    simp only [HitEntry.requeue, waiting, FlushStage.owed, Option.map_some, Option.getD_some]
    change entry.stored + 0 + _ = _
    omega

theorem HitEntry.Counts.step {label : HitStep} (h : entry.Counts)
    (allowed : entry.orderly label = true) (taken : hitStep entry label = some after)
    : after.Counts := by
  have knows := h.knows
  cases label with
  | note now =>
    cases taken
    have live : entry.cleared = false := by simpa [HitEntry.orderly] using allowed
    refine ⟨fun _ => ?_, h.knows, fun cleared => ?_, h.deletes, h.least, h.top, h.dead⟩
    · have conserved := h.conserved live
      simp only [HitEntry.note, HitEntry.stored] at conserved ⊢
      cases waiting : entry.pending with
      | none | some prev =>
        simp [waiting] at conserved ⊢
        omega
    · exact absurd cleared (by simp [HitEntry.note, live])
  | enqueueFlush =>
    simp only [hitStep, Option.ite_none_right_eq_some] at taken
    obtain ⟨-, ⟨⟩⟩ := taken
    exact ⟨h.conserved, h.knows, h.quiet, h.deletes, h.least, h.top, h.dead⟩
  | takePending =>
    simp only [hitStep] at taken
    split at taken
    · rename_i idle _ waiting
      cases taken
      refine ⟨fun live => ?_, trivial, fun cleared => ?_, h.deletes, h.least, h.top, h.dead⟩
      · have conserved := h.conserved live
        simpa [idle, waiting, FlushStage.owed, HitEntry.stored] using conserved
      · simp [(h.quiet cleared).2] at waiting
    · cases taken
      exact ⟨h.conserved, h.knows, h.quiet, h.deletes, h.least, h.top, h.dead⟩
    · cases taken
  | readStat ok =>
    simp only [hitStep] at taken
    split at taken
    · rename_i pending stage
      have busy : entry.flush ≠ .idle := by simp [stage]
      split at taken
      · split at taken
        · rename_i row found
          cases taken
          refine ⟨?_, ?_, fun cleared => absurd (h.quiet cleared).1 busy, h.deletes, h.least,
            h.top, h.dead⟩
          · simpa [stage, FlushStage.owed, HitEntry.stored] using h.conserved
          · simp [rowOver, HitEntry.stored, found]
        · rename_i missing
          cases taken
          refine ⟨?_, missing, fun cleared => absurd (h.quiet cleared).1 busy, h.deletes,
            h.least, h.top, h.dead⟩
          simpa [stage, FlushStage.owed, HitEntry.stored] using h.conserved
      · cases taken
        exact h.requeue (by simp [stage]) busy
    · cases taken
  | readMemory ok =>
    simp only [hitStep] at taken
    split at taken
    · rename_i pending stage
      cases taken
      rw [stage] at knows
      have busy : entry.flush ≠ .idle := by simp [stage]
      refine ⟨?_, ?_, fun cleared => absurd (h.quiet cleared).1 busy, h.deletes, h.least,
        h.top, h.dead⟩
      · simpa [stage, FlushStage.owed, HitEntry.stored] using h.conserved
      simp only [HitEntry.orderly, Bool.or_eq_true, beq_iff_eq] at allowed
      have missing : entry.stat = none := knows
      rcases allowed with ok | none <;>
        simp_all [HitEntry.StageKnows, rowOver, HitEntry.stored]
    · cases taken
  | commitPut =>
    simp only [hitStep] at taken
    split at taken
    · rename_i pending row stage
      cases taken
      rw [stage] at knows
      have count : row.retrievalCount = entry.stored + pending.delta := knows
      have live : entry.cleared = false := by
        by_contra cleared
        simp [(h.quiet (by simpa using cleared)).1] at stage
      refine ⟨fun _ => ?_, rfl, fun cleared => ?_, h.deletes, fun _ => le_rfl, ?_, ?_⟩
      · have conserved := h.conserved live
        simp only [stage, FlushStage.owed, HitEntry.stored] at conserved count ⊢
        omega
      · exact absurd cleared (by simp [live])
      · rintro _ ⟨⟩
        rfl
      · simp [h.dead, live]
    · cases taken
  | answerPut ok =>
    simp only [hitStep] at taken
    split at taken
    · rename_i pending row stage
      split at taken
      · cases taken
      · cases taken
        exact h.requeue (by simp [stage]) (by simp [stage])
    · rename_i pending row stage
      have success : ok = true := by simpa [HitEntry.orderly, stage] using allowed
      subst success
      cases taken
      refine ⟨?_, trivial, fun cleared => ?_, h.deletes, h.least, h.top, h.dead⟩
      · simpa [stage, FlushStage.owed, HitEntry.stored] using h.conserved
      · simp [(h.quiet cleared).1] at stage
    · cases taken
  | readCache =>
    obtain ⟨row, -, rfl⟩ := Option.map_eq_some_iff.mp taken
    exact ⟨h.conserved, h.knows, h.quiet, h.deletes, h.least, h.top, h.dead⟩
  | beginRead read =>
    simp only [hitStep] at taken
    split at taken
    · cases taken
    · cases taken
      exact ⟨h.conserved, h.knows, h.quiet, h.deletes, h.least, h.top, h.dead⟩
  | endRead read =>
    obtain ⟨row, -, rfl⟩ := Option.map_eq_some_iff.mp taken
    exact ⟨h.conserved, h.knows, h.quiet, h.deletes, h.least, h.top, h.dead⟩
  | clear =>
    cases taken
    have idle : entry.flush = .idle := by simpa [HitEntry.orderly] using allowed
    exact ⟨nofun, h.knows, fun _ => ⟨idle, rfl⟩, fun _ => rfl, nofun, h.top, h.dead⟩
  | delete ok =>
    simp only [hitStep] at taken
    split at taken
    · cases taken
    rename_i deletes some_left
    cases taken
    have cleared : entry.cleared = true := h.deletes (by omega)
    have idle := (h.quiet cleared).1
    refine ⟨fun live => ?_, ?_, h.quiet, fun _ => cleared, fun live => ?_, fun row found => ?_,
      h.dead⟩
    · exact absurd live (by simp [cleared])
    · simp [idle]
    · exact absurd live (by simp [cleared])
    · cases ok with
      | true => cases found
      | false => exact h.top row found

theorem HitEntry.Sees.read {row : HitStatRow} (h : entry.Sees)
    (least : ∀ count ∈ entry.seen, count ≤ row.retrievalCount)
    (latest : row.retrievalCount ≤ entry.latest)
    : (∀ count ∈ row.retrievalCount :: entry.seen,
        count ≤ row.retrievalCount ∧ count ≤ entry.latest)
      ∧ (row.retrievalCount :: entry.seen).Pairwise fun newer older => older ≤ newer := by
  refine ⟨fun count member => ?_, List.pairwise_cons.mpr ⟨least, h.steady⟩⟩
  rcases List.mem_cons.mp member with rfl | old
  · exact ⟨le_rfl, latest⟩
  · exact ⟨least count old, h.seen count old⟩

theorem HitEntry.Sees.step {label : HitStep} (h : entry.Sees) (counts : entry.Counts)
    (allowed : entry.orderly label = true) (taken : hitStep entry label = some after)
    : after.Sees := by
  have same {other : HitEntry} (reads : other.reads = entry.reads) (puts : other.puts = entry.puts)
      (cache : other.cache = entry.cache) (latest : other.latest = entry.latest)
      (seen : other.seen = entry.seen)
      : other.Sees := by
    obtain ⟨first, second, third, last⟩ := h
    exact ⟨by rwa [reads, puts, latest], by rwa [cache, latest, seen], by rwa [seen, latest],
      by rwa [seen]⟩
  cases label with
  | note | enqueueFlush | takePending | readStat | readMemory | delete =>
    simp only [hitStep] at taken
    repeat' split at taken
    all_goals cases taken
    all_goals exact same rfl rfl rfl rfl rfl
  | commitPut =>
    simp only [hitStep] at taken
    split at taken
    · rename_i pending row stage
      cases taken
      have knows := counts.knows
      rw [stage] at knows
      have count : row.retrievalCount = entry.stored + pending.delta := knows
      have live : entry.cleared = false := by
        by_contra cleared
        simp [(counts.quiet (by simpa using cleared)).1] at stage
      have more : entry.latest ≤ row.retrievalCount := (counts.least live).trans (by omega)
      refine ⟨fun read puts kept found => ?_, fun cached found => ?_, fun count member =>
        (h.seen count member).trans more, h.steady⟩
      · have old := (h.reads read puts kept found).1
        exact ⟨old.trans (Nat.le_succ _), fun now => by simp only at now; omega⟩
      · exact ⟨(h.cached cached found).1.trans more, (h.cached cached found).2⟩
    · cases taken
  | answerPut ok =>
    simp only [hitStep] at taken
    split at taken
    · split at taken <;> cases taken
      exact same rfl rfl rfl rfl rfl
    · rename_i pending row stage
      split at taken
      · cases taken
        have knows := counts.knows
        rw [stage] at knows
        have count := counts.top row knows
        refine ⟨h.reads, ?_, h.seen, h.steady⟩
        rintro _ ⟨⟩
        exact ⟨count.le, fun old member => (h.seen old member).trans count.ge⟩
      · cases taken
        exact same rfl rfl rfl rfl rfl
    · cases taken
  | readCache =>
    obtain ⟨row, found, rfl⟩ := Option.map_eq_some_iff.mp taken
    obtain ⟨latest, least⟩ := h.cached row found
    obtain ⟨bounds, steady⟩ := h.read least latest
    refine ⟨h.reads, fun other kept => ?_, fun count member => (bounds count member).2, steady⟩
    obtain rfl : row = other := Option.some.inj (found.symm.trans kept)
    exact ⟨latest, fun count member => (bounds count member).1⟩
  | beginRead read =>
    simp only [hitStep] at taken
    split at taken
    · cases taken
    cases taken
    refine ⟨fun other puts row found => ?_, h.cached, h.seen, h.steady⟩
    by_cases this : other = read
    · subst this
      simp only [Function.update_self, Option.map_eq_some_iff, Prod.mk.injEq] at found
      obtain ⟨_, stored, rfl, rfl⟩ := found
      exact ⟨le_rfl, fun _ => counts.top _ stored⟩
    · exact h.reads other puts row (by simpa [this] using found)
  | endRead read =>
    obtain ⟨⟨puts, row⟩, found, rfl⟩ := Option.map_eq_some_iff.mp taken
    have now : puts = entry.puts := by simpa [HitEntry.orderly, found] using allowed
    have count := (h.reads read puts row found).2 now
    obtain ⟨bounds, steady⟩ :=
      h.read (fun old member => (h.seen old member).trans count.ge) count.le
    refine ⟨fun other puts row found => ?_, ?_, fun old member => (bounds old member).2, steady⟩
    · by_cases this : other = read
      · simp [this] at found
      · exact h.reads other puts row (by simpa [this] using found)
    · rintro _ ⟨⟩
      exact ⟨count.le, fun old member => (bounds old member).1⟩
  | clear =>
    cases taken
    exact ⟨h.reads, nofun, h.seen, h.steady⟩

theorem HitEntry.Fresh.inv (fresh : entry.Fresh) : entry.Counts ∧ entry.Sees := by
  refine ⟨⟨fun _ => ?_, ?_, ?_, ?_, fun _ => ?_, fun row found => ?_, fresh.rewritten⟩,
    ?_, ?_, ?_, ?_⟩
  · simp [fresh.flush, fresh.pending, fresh.base, fresh.noted]
  · simp [fresh.flush]
  · simp [fresh.cleared]
  · simp [fresh.deletes]
  · rw [fresh.latest, HitEntry.stored]
    cases entry.stat <;> simp
  · simp [fresh.latest, found]
  · simp [fresh.reads]
  · simp [fresh.cache]
  · simp [fresh.seen]
  · simp [fresh.seen]

/-- In every run of orderly steps each id's hits are conserved. -/
theorem hit_counts_conserved (entries : String → HitEntry)
    (reached : hitTracker.ReachableUnder
      (fun entries label => (entries label.1).orderly label.2 = true) entries)
    (id : String)
    : (entries id).Conserved := by
  have inv : ∀ id, (entries id).Counts ∧ (entries id).Sees := by
    refine reached.invariant (fun _ fresh id => (fresh id).inv) ?_
    rintro before ⟨at_, label⟩ after holds allowed taken other
    obtain ⟨next, stepped, rfl⟩ := Option.map_eq_some_iff.mp taken
    by_cases this : other = at_
    · subst this
      obtain ⟨counts, sees⟩ := holds other
      simpa using ⟨counts.step allowed stepped, sees.step counts allowed stepped⟩
    · simpa [this] using holds other
  obtain ⟨counts, sees⟩ := inv id
  refine ⟨fun ⟨drained, _, idle⟩ live => ?_, sees.steady, counts.dead⟩
  simpa [drained, idle, FlushStage.owed] using counts.conserved live

-- A put that takes effect and then fails

def quietTracker : String → HitEntry := fun _ =>
  ⟨none, 0, .idle, none, none, none, fun _ => none, 0, 0, 0, 0, 0, false, false, []⟩

theorem quietTracker_fresh : hitTracker.initial quietTracker := fun _ =>
  ⟨rfl, rfl, rfl, rfl, fun _ => rfl, rfl, rfl, rfl, rfl, rfl, rfl, rfl⟩

def oneHit (answered : Bool) : List (String × HitStep) :=
  [.note "2026-09-08T00:00:00.000Z", .takePending, .readStat true, .readMemory true, .commitPut,
    .answerPut answered].map ("m", ·)

/-- The hit stored again by the flush that `whenIdle` starts. -/
def hitAgain : List (String × HitStep) :=
  [.enqueueFlush, .takePending, .readStat true, .commitPut, .answerPut true].map ("m", ·)

def afterOneHit : String → HitEntry :=
  (hitTracker.runUnder (fun entries label => (entries label.1).orderly label.2) quietTracker
    (oneHit true)).getD quietTracker

theorem hit_counts_conserved_once
    : (afterOneHit "m").stored = 1 ∧ (afterOneHit "m").Idle ∧ (afterOneHit "m").Conserved := by
  have runs : (hitTracker.runUnder (fun entries label => (entries label.1).orderly label.2)
      quietTracker (oneHit true)).isSome = true := by
    decide
  obtain ⟨entries, run⟩ := Option.isSome_iff_exists.mp runs
  have same : afterOneHit = entries := by rw [afterOneHit, run, Option.getD_some]
  exact ⟨by decide, by unfold HitEntry.Idle; decide, hit_counts_conserved afterOneHit
    (same ▸ ⟨_, quietTracker_fresh, System.reachesUnder_of_runUnder run⟩) "m"⟩

theorem hit_counted_twice
    : ¬ ∀ entries, hitTracker.Reachable entries → ∀ id, (entries id).Conserved := by
  intro conserved
  have runs : (hitTracker.run quietTracker (oneHit false ++ hitAgain)).any (fun entries =>
      decide ((entries "m").stored = 2 ∧ (entries "m").noted = 1 ∧ (entries "m").base = 0
        ∧ (entries "m").pending = none ∧ (entries "m").queued = 0 ∧ (entries "m").flush = .idle
        ∧ (entries "m").cleared = false)) = true := by
    decide
  obtain ⟨entries, run, checks⟩ := (Option.any_eq_true _ _).mp runs
  obtain ⟨stored, noted, base, drained, empty, idle, live⟩ := of_decide_eq_true checks
  have counted := (conserved entries (System.reachable_of_run quietTracker_fresh run) "m").counted
    ⟨drained, empty, idle⟩ live
  omega

end Flair.Usage
