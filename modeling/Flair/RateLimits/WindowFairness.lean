import Flair.Foundations.Systems
import Flair.RateLimits.FixedWindow

/-! Runs of `consume` calls under several policies. The log of calls and of dropped entries
says what a key's window admitted and which entry a full table forgot. The eviction judges
every entry by the window of the policy that is calling; where that window is the shorter
one, an open window is forgotten out of turn.
-/

namespace Flair.RateLimits

open Transition

/-- One `consume` call. -/
structure Call where
  key : String
  moment : Int
  opened : Bool
  limited : Bool

/-- An entry the eviction removed, with the keys that were tracked when it ran. -/
structure Drop where
  key : String
  bucket : Bucket
  moment : Int
  tracked : List String

inductive Event where
  | called (call : Call)
  | dropped (drop : Drop)

abbrev Log := List Event

structure Limiter where
  buckets : Buckets
  clock : Int
  log : Log

structure Request where
  key : String
  moment : Int

def removed (before after : Buckets) : Buckets :=
  before.filter fun entry => (after.get entry.1).isNone

def Limiter.counted (state : Limiter) (policy : Policy) (request : Request) : Bucket :=
  nextBucket (state.buckets.get request.key) policy request.moment

/-- The table a request leaves before anything is evicted. -/
def Limiter.touched (state : Limiter) (policy : Policy) (request : Request) : Buckets :=
  touch state.buckets request.key (state.counted policy request)

def Limiter.call (state : Limiter) (policy : Policy) (request : Request) : Call where
  key := request.key
  moment := request.moment
  opened := opens (state.buckets.get request.key) policy request.moment
  limited := (consume state.buckets request.key policy request.moment).1.limited

def dropEvents (moment : Int) (touched kept : Buckets) : Log :=
  (removed touched kept).map fun entry =>
    .dropped ⟨entry.1, entry.2, moment, touched.map Prod.fst⟩

def Limiter.after (state : Limiter) (policy : Policy) (request : Request) : Limiter :=
  let kept := (consume state.buckets request.key policy request.moment).2
  { buckets := kept
    clock := request.moment
    log := dropEvents request.moment (state.touched policy request) kept
      ++ .called (state.call policy request) :: state.log }

def limiter (policyOf : String → Policy) : System Limiter Request where
  initial state := state.buckets = [] ∧ state.log = []
  step state request :=
    if state.clock ≤ request.moment then some (state.after (policyOf request.key) request)
    else none

variable {policyOf : String → Policy} {state : Limiter} {request : Request}

def window (key : String) : Log → List Call
  | [] => []
  | .dropped drop :: past => if drop.key = key then [] else window key past
  | .called call :: past =>
    if call.key ≠ key then window key past
    else if call.opened then [call]
    else call :: window key past

def calledKeys (log : Log) : List String :=
  log.filterMap fun
    | .called call => some call.key
    | .dropped _ => none

def UsedSince (log : Log) (idle busy : String) : Prop :=
  busy ∈ (calledKeys log).takeWhile (· ≠ idle)

/-- The entry's own window is open when it is dropped. -/
def Drop.untimely (drop : Drop) (policy : Policy) : Prop :=
  drop.moment - drop.bucket.windowStart < policy.windowMs

/-- What fair limiting says about a log: a window admits at most the limit, spans at most
the policy's length, ends only when that is over or its entry is dropped, and an entry with
an open window is dropped only from a full table as the least recently used.
-/
structure Fair (policyOf : String → Policy) (log : Log) : Prop where
  bounded : ∀ past key, past <:+ log
    → ((window key past).filter (! ·.limited)).length ≤ (policyOf key).limit
  spanned : ∀ past key opening, past <:+ log → (window key past).getLast? = some opening
    → ∀ call ∈ window key past,
      opening.moment ≤ call.moment ∧ call.moment - opening.moment < (policyOf key).windowMs
  reopened : ∀ call past opening, .called call :: past <:+ log → call.opened = true
    → (window call.key past).getLast? = some opening
    → (policyOf call.key).windowMs ≤ call.moment - opening.moment
  dropped : ∀ drop past, .dropped drop :: past <:+ log → drop.untimely (policyOf drop.key)
    → drop.tracked.Nodup ∧ maxTrackedKeys < drop.tracked.length
      ∧ ∀ other ∈ drop.tracked, other ≠ drop.key → UsedSince past drop.key other

/-- The entry a request would push out of a full table, the first whose window is over by
the calling policy's length, is over by its own policy's length or is first of all.
-/
def Spares (policyOf : String → Policy) (state : Limiter) (request : Request) : Prop :=
  state.buckets.get request.key = none → state.buckets.length = maxTrackedKeys
    → ∀ victim,
      state.buckets.find? (aged request.moment (policyOf request.key).windowMs) = some victim
      → aged request.moment (policyOf victim.1).windowMs victim = true
        ∨ state.buckets.head? = some victim

-- What the table knows of the log

@[simp] theorem window_nil (key : String) : window key [] = [] := rfl

theorem window_dropped (key : String) (drop : Drop) (past : Log)
    : window key (.dropped drop :: past) = if drop.key = key then [] else window key past :=
  rfl

variable {call : Call}

theorem window_called_other {key : String} (h : call.key ≠ key) (past : Log)
    : window key (.called call :: past) = window key past := by
  rw [window, if_pos h]

theorem window_opened (h : call.opened = true) (past : Log)
    : window call.key (.called call :: past) = [call] := by
  rw [window, if_neg (by simp), if_pos h]

theorem window_continued (h : call.opened = false) (past : Log)
    : window call.key (.called call :: past) = call :: window call.key past := by
  rw [window, if_neg (by simp), if_neg (by simp [h])]

@[simp] theorem calledKeys_called (call : Call) (past : Log)
    : calledKeys (.called call :: past) = call.key :: calledKeys past := rfl

theorem UsedSince.latest {idle : String} (h : call.key ≠ idle) (past : Log)
    : UsedSince (.called call :: past) idle call.key := by
  unfold UsedSince
  rw [calledKeys_called, List.takeWhile_cons_of_pos (by simpa using h)]
  exact List.mem_cons_self

theorem UsedSince.later {past : Log} {idle busy : String} (h : UsedSince past idle busy)
    (apart : call.key ≠ idle)
    : UsedSince (.called call :: past) idle busy := by
  unfold UsedSince
  rw [calledKeys_called, List.takeWhile_cons_of_pos (by simpa using apart)]
  exact List.mem_cons_of_mem _ h

structure Counts (policy : Policy) (calls : List Call) (bucket : Bucket) : Prop where
  length : calls.length = bucket.count
  start : ∃ opening, calls.getLast? = some opening ∧ opening.moment = bucket.windowStart
  within : ∀ call ∈ calls,
    bucket.windowStart ≤ call.moment ∧ call.moment - bucket.windowStart < policy.windowMs
  admitted : (calls.filter (! ·.limited)).length = min bucket.count policy.limit

variable {policy : Policy}

theorem Counts.open (decided : call.limited = decide (policy.limit < 1))
    : Counts policy [call] ⟨call.moment, 1⟩ := by
  have allowed : call.limited = false := by
    rw [decided, decide_eq_false_iff_not]
    exact Nat.not_lt.mpr policy.limitPositive
  have length := policy.windowPositive
  refine ⟨rfl, ⟨call, rfl, rfl⟩, ?_, ?_⟩
  · intro other member
    obtain rfl := List.mem_singleton.mp member
    dsimp only
    omega
  · have positive := policy.limitPositive
    simp only [List.filter_cons, allowed, Bool.not_false, if_true, List.filter_nil,
      List.length_singleton]
    omega

theorem Counts.next {calls : List Call} {bucket : Bucket} (h : Counts policy calls bucket)
    (decided : call.limited = decide (policy.limit < bucket.count + 1))
    (begun : bucket.windowStart ≤ call.moment)
    (running : call.moment - bucket.windowStart < policy.windowMs)
    : Counts policy (call :: calls) ⟨bucket.windowStart, bucket.count + 1⟩ := by
  obtain ⟨opening, last, same⟩ := h.start
  refine ⟨by simp [h.length], ⟨opening, ?_, same⟩, ?_, ?_⟩
  · rw [List.getLast?_cons, last]
    rfl
  · intro other member
    rcases List.mem_cons.mp member with rfl | earlier
    · exact ⟨begun, running⟩
    · exact h.within other earlier
  · have before := h.admitted
    cases limited : call.limited with
    | true =>
      rw [limited] at decided
      have full : policy.limit < bucket.count + 1 := of_decide_eq_true decided.symm
      rw [List.filter_cons_of_neg (by simp [limited]), before]
      dsimp only
      omega
    | false =>
      rw [limited] at decided
      have room : ¬ policy.limit < bucket.count + 1 := of_decide_eq_false decided.symm
      rw [List.filter_cons_of_pos (by simp [limited]), List.length_cons, before]
      dsimp only
      omega

/-- A table follows a log: it holds the current window of each key it tracks, tracks every
key with one, and lists the keys by their last use.
-/
structure Follows (policyOf : String → Policy) (buckets : Buckets) (clock : Int) (log : Log)
    : Prop where
  distinct : InsertionMap.Distinct buckets
  counted : ∀ key bucket, buckets.get key = some bucket
    → Counts (policyOf key) (window key log) bucket
  begun : ∀ key bucket, buckets.get key = some bucket → bucket.windowStart ≤ clock
  forgotten : ∀ key, buckets.get key = none → window key log = []
  ordered : (buckets.map Prod.fst).Pairwise (UsedSince log)

section

variable {policyOf : String → Policy} {buckets : Buckets} {clock : Int} {log : Log}

theorem Follows.empty : Follows policyOf [] clock [] :=
  ⟨List.nodup_nil, fun _ _ h => (by cases h), fun _ _ h => (by cases h), fun _ _ => rfl,
    List.Pairwise.nil⟩

theorem Follows.bounded (h : Follows policyOf buckets clock log) (key : String)
    : ((window key log).filter (! ·.limited)).length ≤ (policyOf key).limit := by
  cases tracked : buckets.get key with
  | none => simp [h.forgotten key tracked]
  | some bucket =>
    rw [(h.counted key bucket tracked).admitted]
    exact Nat.min_le_right _ _

theorem Follows.spanned (h : Follows policyOf buckets clock log) {key : String}
    {opening : Call} (first : (window key log).getLast? = some opening)
    : ∀ call ∈ window key log,
      opening.moment ≤ call.moment ∧ call.moment - opening.moment < (policyOf key).windowMs := by
  cases tracked : buckets.get key with
  | none => simp [h.forgotten key tracked]
  | some bucket =>
    have counts := h.counted key bucket tracked
    obtain ⟨start, last, same⟩ := counts.start
    obtain rfl := Option.some.inj (last.symm.trans first)
    rw [same]
    exact counts.within

theorem Follows.counts_call (h : Follows policyOf buckets clock log) {call : Call}
    (later : clock ≤ call.moment)
    (opened : call.opened = opens (buckets.get call.key) (policyOf call.key) call.moment)
    (decided : call.limited = decide ((policyOf call.key).limit
      < (nextBucket (buckets.get call.key) (policyOf call.key) call.moment).count))
    : Counts (policyOf call.key) (window call.key (.called call :: log))
      (nextBucket (buckets.get call.key) (policyOf call.key) call.moment) := by
  cases tracked : buckets.get call.key with
  | none =>
    simp only [tracked, opens, nextBucket] at opened decided ⊢
    rw [window_opened opened]
    exact Counts.open decided
  | some bucket =>
    by_cases beyond : (policyOf call.key).windowMs ≤ call.moment - bucket.windowStart
    · simp only [tracked, opens, nextBucket, beyond, decide_true, if_true] at opened decided ⊢
      rw [window_opened opened]
      exact Counts.open decided
    · simp only [tracked, opens, nextBucket, beyond, decide_false, if_false] at opened decided ⊢
      rw [window_continued opened]
      have begun := h.begun call.key bucket tracked
      exact (h.counted call.key bucket tracked).next decided (by omega) (by omega)

theorem nextBucket_begun (h : Follows policyOf buckets clock log) {key : String}
    {policy : Policy} {now : Int} (later : clock ≤ now)
    : (nextBucket (buckets.get key) policy now).windowStart ≤ now := by
  cases tracked : buckets.get key with
  | none => simp [nextBucket]
  | some bucket =>
    have begun := h.begun key bucket tracked
    simp only [nextBucket]
    split
    · simp
    · simp only
      omega

theorem Follows.touch (h : Follows policyOf buckets clock log) {call : Call}
    (later : clock ≤ call.moment)
    (opened : call.opened = opens (buckets.get call.key) (policyOf call.key) call.moment)
    (decided : call.limited = decide ((policyOf call.key).limit
      < (nextBucket (buckets.get call.key) (policyOf call.key) call.moment).count))
    : Follows policyOf
      (touch buckets call.key
        (nextBucket (buckets.get call.key) (policyOf call.key) call.moment))
      call.moment (.called call :: log) := by
  refine ⟨?_, ?_, ?_, ?_, ?_⟩
  · exact InsertionMap.Distinct.modify h.distinct.delete _
  · intro key bucket tracked
    rw [get_touch] at tracked
    by_cases same : key = call.key
    · subst same
      rw [if_pos rfl] at tracked
      cases tracked
      exact h.counts_call later opened decided
    · rw [if_neg same] at tracked
      rw [window_called_other (fun equal => same equal.symm)]
      exact h.counted key bucket tracked
  · intro key bucket tracked
    rw [get_touch] at tracked
    split at tracked
    · cases tracked
      exact nextBucket_begun h later
    · exact (h.begun key bucket tracked).trans later
  · intro key untracked
    rw [get_touch] at untracked
    split at untracked
    · cases untracked
    · rename_i apart
      rw [window_called_other (fun equal => apart equal.symm)]
      exact h.forgotten key untracked
  · rw [touch_eq, List.map_append, List.pairwise_append]
    have others : ∀ key ∈ (buckets.delete call.key).map Prod.fst, call.key ≠ key := by
      intro key member
      obtain ⟨entry, inside, rfl⟩ := List.mem_map.mp member
      have apart := (List.mem_filter.mp inside).2
      exact fun equal => (of_decide_eq_true apart) equal.symm
    refine ⟨?_, List.pairwise_singleton _ _, ?_⟩
    · have kept : ((buckets.delete call.key).map Prod.fst).Sublist (buckets.map Prod.fst) :=
        List.filter_sublist.map _
      refine (h.ordered.sublist kept).imp_of_mem ?_
      intro idle busy member _ used
      exact used.later (others idle member)
    · intro idle member busy last
      obtain rfl := List.mem_singleton.mp last
      exact UsedSince.latest (others idle member) log

theorem Follows.drop {front back : Buckets} {victim : String × Bucket}
    (h : Follows policyOf (front ++ victim :: back) clock log) (moment : Int)
    (tracked : List String)
    : Follows policyOf (front ++ back) clock
      (.dropped ⟨victim.1, victim.2, moment, tracked⟩ :: log) := by
  rw [← h.distinct.delete_split]
  refine ⟨h.distinct.delete, ?_, ?_, ?_, ?_⟩
  · intro key bucket held
    rw [InsertionMap.get_delete] at held
    split at held
    · cases held
    · rename_i apart
      rw [window_dropped, if_neg (fun equal => apart equal.symm)]
      exact h.counted key bucket held
  · intro key bucket held
    rw [InsertionMap.get_delete] at held
    split at held
    · cases held
    · exact h.begun key bucket held
  · intro key untracked
    rw [InsertionMap.get_delete] at untracked
    rw [window_dropped]
    split
    · rfl
    · rename_i apart
      rw [if_neg (fun equal => apart equal.symm)] at untracked
      exact h.forgotten key untracked
  · exact h.ordered.sublist (List.filter_sublist.map _)

end

-- One request

theorem removed_self (table : Buckets) : removed table table = [] := by
  unfold removed
  rw [List.filter_eq_nil_iff]
  intro entry member
  have found := InsertionMap.isSome_get_of_mem member
  rw [Bool.not_eq_true, ← Option.not_isSome, found]
  rfl

theorem removed_one {front back : Buckets} {victim : String × Bucket}
    (distinct : InsertionMap.Distinct (front ++ victim :: back))
    : removed (front ++ victim :: back) (front ++ back) = [victim] := by
  have gone : ((front ++ back).get victim.1).isNone = true := by
    rw [← distinct.delete_split, InsertionMap.get_delete, if_pos rfl]
    rfl
  have kept := removed_self (front ++ back)
  unfold removed at kept ⊢
  rw [List.filter_append] at kept
  obtain ⟨first, last⟩ := List.append_eq_nil_iff.mp kept
  rw [List.filter_append, List.filter_cons, if_pos gone, first, last, List.nil_append]

structure Limiter.Tracks (policyOf : String → Policy) (state : Limiter) : Prop where
  follows : Follows policyOf state.buckets state.clock state.log
  capped : state.buckets.length ≤ maxTrackedKeys

/-- What one request does: it counts the call, and when that is one entry too many it drops
one, the first whose window is over by the calling policy's length or the first of all.
-/
theorem Limiter.after_cases (distinct : InsertionMap.Distinct (state.touched policy request))
    (capped : state.buckets.length ≤ maxTrackedKeys)
    : ((state.after policy request).buckets = state.touched policy request
        ∧ (state.touched policy request).length ≤ maxTrackedKeys
        ∧ (state.after policy request).log = .called (state.call policy request) :: state.log)
      ∨ (maxTrackedKeys < (state.touched policy request).length
        ∧ ∃ front victim back, state.touched policy request = front ++ victim :: back
          ∧ (state.after policy request).buckets = front ++ back
          ∧ (state.after policy request).log
            = .dropped ⟨victim.1, victim.2, request.moment,
                (state.touched policy request).map Prod.fst⟩
              :: .called (state.call policy request) :: state.log
          ∧ ((state.touched policy request).find? (aged request.moment policy.windowMs)
              = some victim
            ∨ ((state.touched policy request).find? (aged request.moment policy.windowMs)
                = none
              ∧ front = []))) := by
  have kept : (consume state.buckets request.key policy request.moment).2
      = evict request.moment policy.windowMs (state.touched policy request) := rfl
  have few := length_touch_le state.buckets request.key (state.counted policy request)
  by_cases full : maxTrackedKeys < (state.touched policy request).length
  · right
    have one : (state.touched policy request).length = maxTrackedKeys + 1 := by
      unfold Limiter.touched at full ⊢
      omega
    obtain ⟨front, victim, back, split, evicted, chosen⟩ :=
      evictOldest_full request.moment policy.windowMs one
    refine ⟨full, front, victim, back, split, ?_, ?_, chosen⟩
    · simp only [Limiter.after, kept, evict, if_pos full, evicted]
    simp only [Limiter.after, kept, evict, if_pos full, evicted, dropEvents]
    rw [split] at distinct ⊢
    rw [removed_one distinct]
    rfl
  · left
    refine ⟨?_, Nat.not_lt.mp full, ?_⟩
    · simp only [Limiter.after, kept, evict, if_neg full]
    · simp only [Limiter.after, kept, evict, if_neg full, dropEvents, removed_self]
      rfl

theorem Limiter.Tracks.touched (h : state.Tracks policyOf) (later : state.clock ≤ request.moment)
    : Follows policyOf (state.touched (policyOf request.key) request) request.moment
      (.called (state.call (policyOf request.key) request) :: state.log) :=
  @Follows.touch _ _ _ _ h.follows (state.call (policyOf request.key) request) later rfl rfl

theorem Limiter.Tracks.after (h : state.Tracks policyOf) (later : state.clock ≤ request.moment)
    : (state.after (policyOf request.key) request).Tracks policyOf := by
  have touched := h.touched later
  rcases Limiter.after_cases touched.distinct h.capped with
    ⟨buckets, small, log⟩ | ⟨_, front, victim, back, split, buckets, log, _⟩
  · refine ⟨?_, buckets ▸ small⟩
    rw [buckets, log]
    exact touched
  · have few := length_touch_le state.buckets request.key
      (state.counted (policyOf request.key) request)
    refine ⟨?_, ?_⟩
    · rw [buckets, log]
      exact (split ▸ touched).drop _ _
    have capped := h.capped
    unfold Limiter.touched at split
    rw [split, List.length_append, List.length_cons] at few
    rw [buckets, List.length_append]
    omega

-- Fair logs

theorem Fair.empty (policyOf : String → Policy) : Fair policyOf [] := by
  have only : ∀ {past : Log}, past <:+ [] → past = [] := fun h => List.suffix_nil.mp h
  refine ⟨?_, ?_, ?_, ?_⟩
  · intro past key inside
    simp [only inside]
  · intro past key opening inside
    simp [only inside]
  · intro call past opening inside
    cases only inside
  · intro drop past inside
    cases only inside

theorem Fair.grow {buckets : Buckets} {clock : Int} {log : Log} {event : Event}
    (h : Fair policyOf log) (follows : Follows policyOf buckets clock (event :: log))
    (called : ∀ call, event = .called call → call.opened = true
      → ∀ opening, (window call.key log).getLast? = some opening
      → (policyOf call.key).windowMs ≤ call.moment - opening.moment)
    (dropped : ∀ drop, event = .dropped drop → drop.untimely (policyOf drop.key)
      → drop.tracked.Nodup ∧ maxTrackedKeys < drop.tracked.length
        ∧ ∀ other ∈ drop.tracked, other ≠ drop.key → UsedSince log drop.key other)
    : Fair policyOf (event :: log) := by
  refine ⟨?_, ?_, ?_, ?_⟩
  · intro past key inside
    rcases List.suffix_cons_iff.mp inside with rfl | older
    · exact follows.bounded key
    · exact h.bounded past key older
  · intro past key opening inside first
    rcases List.suffix_cons_iff.mp inside with rfl | older
    · exact follows.spanned first
    · exact h.spanned past key opening older first
  · intro call past opening inside opened first
    rcases List.suffix_cons_iff.mp inside with same | older
    · obtain ⟨rfl, rfl⟩ := List.cons.inj same
      exact called call rfl opened opening first
    · exact h.reopened call past opening older opened first
  · intro drop past inside untimely
    rcases List.suffix_cons_iff.mp inside with same | older
    · obtain ⟨rfl, rfl⟩ := List.cons.inj same
      exact dropped drop rfl untimely
    · exact h.dropped drop past older untimely

theorem Limiter.Tracks.reopened (h : state.Tracks policyOf)
    (opened : (state.call (policyOf request.key) request).opened = true) {opening : Call}
    (first : (window request.key state.log).getLast? = some opening)
    : (policyOf request.key).windowMs ≤ request.moment - opening.moment := by
  cases tracked : state.buckets.get request.key with
  | none =>
    rw [h.follows.forgotten request.key tracked] at first
    cases first
  | some bucket =>
    obtain ⟨start, last, same⟩ := (h.follows.counted request.key bucket tracked).start
    obtain rfl := Option.some.inj (last.symm.trans first)
    rw [same]
    have beyond : opens (state.buckets.get request.key) (policyOf request.key) request.moment
        = true := opened
    rw [tracked] at beyond
    exact of_decide_eq_true beyond

theorem Limiter.Tracks.of_reachable (h : (limiter policyOf).Reachable state)
    : state.Tracks policyOf := by
  refine System.Reachable.invariant ?_ ?_ h
  · rintro start ⟨table, log⟩
    refine ⟨?_, by simp [table]⟩
    rw [table, log]
    exact Follows.empty
  · intro before request after tracks taken
    simp only [limiter, Option.ite_none_right_eq_some, Option.some.injEq] at taken
    obtain ⟨later, rfl⟩ := taken
    exact tracks.after later

section

variable {policyOf : String → Policy}

end

end Flair.RateLimits
