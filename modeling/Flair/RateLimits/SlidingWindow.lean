import Flair.Foundations.InsertionMap
import Flair.Foundations.Systems
import Mathlib.Data.Rat.Floor
import Mathlib.Data.Real.Basic

/-! The per-agent sliding window limiter. A limit is whatever number the configuration
reads as; it bounds the allowed calls of every minute exactly when it is a positive integer
or bounds nothing. Follows `resources/rate-limiter.ts`.
-/

namespace Flair.RateLimits

open Transition

inductive Number where
  | finite (value : Rat)
  | infinite
  | negativeInfinite
  | notANumber

/-- `count >= limit`. -/
def Number.reachedBy : Number → Nat → Bool
  | finite value, count => decide (value ≤ count)
  | infinite, _ => false
  | negativeInfinite, _ => true
  | notANumber, _ => false

/-- `count > limit`. -/
def Number.exceededBy : Number → Nat → Bool
  | finite value, count => decide (value < count)
  | infinite, _ => false
  | negativeInfinite, _ => true
  | notANumber, _ => false

/-- `limit - count`. -/
def Number.minus : Number → Nat → Number
  | finite value, count => finite (value - count)
  | limit, _ => limit

inductive Meter where
  | general | embedding | usage
deriving DecidableEq

def Meter.name : Meter → String
  | general => "general"
  | embedding => "embedding"
  | usage => "usage"

/-- The limits as configured: `none` is a variable that is unset or empty, and any other
text is what `Number` reads of it.
-/
structure Settings where
  enabled : Bool
  limits : Meter → Option Number

def Meter.defaultLimit : Meter → Nat
  | general => 120
  | embedding => 30
  | usage => 30

def getLimit (settings : Settings) (meter : Meter) : Number :=
  (settings.limits meter).getD (.finite meter.defaultLimit)

def windowMs : Int := 60000

/-- The moments of the allowed calls a key is still held to, the oldest first. -/
abbrev Windows := InsertionMap String (List Int)

structure Answer where
  allowed : Bool
  retryAfterMs : Option Number
  remaining : Option Number

def windowKey (agentId : String) (meter : Meter) : String := agentId ++ ":" ++ meter.name

/-- `Math.max(oldest + WINDOW_MS - now, 1000)`; there is no oldest call in an empty window. -/
def retryAfter (timestamps : List Int) (now : Int) : Number :=
  match timestamps with
  | [] => .notANumber
  | oldest :: _ => .finite (max (oldest + windowMs - now) 1000 : Int)

def prune (cutoff : Int) (timestamps : List Int) : List Int :=
  timestamps.filter fun moment => cutoff < moment

/-- The limiter skips a call when it is off or the call names no agent. -/
def exempt (settings : Settings) (agentId : String) : Bool :=
  !settings.enabled || agentId == ""

def checkRateLimit (settings : Settings) (windows : Windows) (agentId : String) (meter : Meter)
    (now : Int)
    : Answer × Windows :=
  if exempt settings agentId then (⟨true, none, none⟩, windows)
  else
    let limit := getLimit settings meter
    let key := windowKey agentId meter
    let timestamps := prune (now - windowMs) ((windows.get key).getD [])
    if limit.reachedBy timestamps.length then
      (⟨false, some (retryAfter timestamps now), some (.finite 0)⟩, windows.set key timestamps)
    else
      (⟨true, none, some (limit.minus (timestamps.length + 1))⟩,
        windows.set key (timestamps ++ [now]))

def cleanup (windows : Windows) (now : Int) : Windows :=
  windows.filterLists fun moment => decide (now - windowMs * 2 < moment)

-- Runs

/-- The limiter's windows, its clock, and the calls it allowed under a key, latest first. -/
structure Checks where
  windows : Windows
  clock : Int
  allowed : List (String × Int)

inductive Happening where
  | check (agentId : String) (meter : Meter) (now : Int)
  | cleanup (now : Int)

def Happening.moment : Happening → Int
  | check _ _ now => now
  | cleanup now => now

def Checks.after (settings : Settings) (state : Checks) : Happening → Checks
  | .check agentId meter now =>
    let (answer, windows) := checkRateLimit settings state.windows agentId meter now
    { windows := windows
      clock := now
      allowed :=
        if answer.allowed && !exempt settings agentId then
          (windowKey agentId meter, now) :: state.allowed
        else state.allowed }
  | .cleanup now => { state with windows := cleanup state.windows now, clock := now }

/-- Calls and sweeps in any order, under a clock that never goes back. -/
def checks (settings : Settings) : System Checks Happening where
  initial state := state.windows = [] ∧ state.allowed = []
  step state happening :=
    if state.clock ≤ happening.moment then some (state.after settings happening) else none

def allowedMoments (key : String) (allowed : List (String × Int)) : List Int :=
  (allowed.filter (·.1 = key)).map Prod.snd

open Classical in
/-- How many of these moments lie in the minute that starts at an instant. -/
noncomputable def inMinute (start : ℝ) (moments : List Int) : Nat :=
  moments.countP fun (moment : Int) =>
    decide (start ≤ (moment : ℝ) ∧ (moment : ℝ) < start + windowMs)

def sparesKey (key : String) : Guard Checks Happening
  | _, .check agentId meter _ => windowKey agentId meter ≠ key
  | _, .cleanup _ => True

/-- The limiter keeps its word: no minute of a key has more allowed calls than its limit,
and a call made once the advised wait is over is allowed unless the key was called between.
-/
structure Honest (settings : Settings) (state : Checks) : Prop where
  bounded : ∀ agentId meter start, exempt settings agentId = false
    → (getLimit settings meter).exceededBy
        (inMinute start (allowedMoments (windowKey agentId meter) state.allowed)) = false
  retries : ∀ agentId meter now, state.clock ≤ now
    → (checkRateLimit settings state.windows agentId meter now).1.allowed = false
    → ∃ wait, (checkRateLimit settings state.windows agentId meter now).1.retryAfterMs
        = some (.finite wait)
      ∧ ∀ later, (checks settings).ReachesUnder (sparesKey (windowKey agentId meter))
          (state.after settings (.check agentId meter now)) later
        → ∀ moment : Int, later.clock ≤ moment → (now : Rat) + wait ≤ moment
        → (checkRateLimit settings later.windows agentId meter moment).1.allowed = true

def Number.keepable : Number → Prop
  | finite value => ∃ count : Nat, 0 < count ∧ value = count
  | infinite => True
  | negativeInfinite => False
  | notANumber => True

-- Limits and windows

variable {limit : Number}

theorem Number.exceededBy_of_le {fewer more : Nat} (h : fewer ≤ more)
    (within : limit.exceededBy more = false)
    : limit.exceededBy fewer = false := by
  cases limit with
  | finite value =>
    have enough := of_decide_eq_false within
    have smaller : (fewer : Rat) ≤ more := by exact_mod_cast h
    exact decide_eq_false (fun past => enough (lt_of_lt_of_le past smaller))
  | infinite => rfl
  | negativeInfinite => cases within
  | notANumber => rfl

theorem Number.keepable.room (h : limit.keepable) {count : Nat}
    (unreached : limit.reachedBy count = false)
    : limit.exceededBy (count + 1) = false := by
  cases limit with
  | finite value =>
    obtain ⟨whole, _, rfl⟩ := h
    have below := of_decide_eq_false unreached
    have fits : count + 1 ≤ whole := by
      have less : ¬ whole ≤ count := fun le => below (by exact_mod_cast le)
      omega
    refine decide_eq_false (not_lt.mpr ?_)
    exact_mod_cast fits
  | infinite => rfl
  | negativeInfinite => cases h
  | notANumber => rfl

/-- A keepable limit that is reached but not exceeded leaves room for a call once one of
the counted calls is over.
-/
theorem Number.keepable.freed (h : limit.keepable) {count : Nat}
    (reached : limit.reachedBy count = true) (within : limit.exceededBy count = false)
    : 0 < count ∧ ∀ fewer < count, limit.reachedBy fewer = false := by
  cases limit with
  | finite value =>
    obtain ⟨whole, positive, rfl⟩ := h
    have enough : whole ≤ count := by exact_mod_cast of_decide_eq_true reached
    have atMost : count ≤ whole := by exact_mod_cast not_lt.mp (of_decide_eq_false within)
    refine ⟨by omega, fun fewer less => decide_eq_false (not_le.mpr ?_)⟩
    have below : fewer < whole := by omega
    exact_mod_cast below
  | infinite => cases reached
  | negativeInfinite => cases h
  | notANumber => cases reached

theorem windowKey_meter {first second : String} {meter other : Meter}
    (h : windowKey first meter = windowKey second other)
    : meter = other := by
  have letters := congrArg (fun key => key.toList.getLast?) h
  cases meter <;> cases other <;> simp [windowKey, Meter.name] at letters <;> rfl

theorem prune_prune {earlier later : Int} (h : earlier ≤ later) (timestamps : List Int)
    : prune later (prune earlier timestamps) = prune later timestamps := by
  unfold prune
  rw [List.filter_filter]
  refine List.filter_congr ?_
  intro moment _
  by_cases inside : later < moment
  · have above : earlier < moment := by omega
    simp [inside, above]
  · simp [inside]

def held (windows : Windows) (key : String) : List Int := (windows.get key).getD []

theorem held_set (windows : Windows) (key other : String) (timestamps : List Int)
    : held (windows.set key timestamps) other
      = if other = key then timestamps else held windows other := by
  unfold held
  rw [InsertionMap.get_set]
  split <;> rfl

theorem held_cleanup {windows : Windows} (distinct : InsertionMap.Distinct windows)
    (key : String) (now : Int)
    : held (cleanup windows now) key = prune (now - windowMs * 2) (held windows key) :=
  distinct.get_filterLists _

theorem allowedMoments_cons (key other : String) (now : Int) (allowed : List (String × Int))
    : allowedMoments key ((other, now) :: allowed)
      = if other = key then now :: allowedMoments key allowed
        else allowedMoments key allowed := by
  unfold allowedMoments
  by_cases same : other = key <;> simp [same]

theorem inMinute_le_pruned {start : ℝ} {now : Int} (h : (now : ℝ) < start + windowMs)
    (moments : List Int)
    : inMinute start moments ≤ (prune (now - windowMs) moments.reverse).length := by
  classical
  unfold inMinute prune
  rw [← List.countP_eq_length_filter, List.countP_reverse]
  refine List.countP_mono_left ?_
  intro moment _ inside
  obtain ⟨after, _⟩ := of_decide_eq_true inside
  have later : ((now - windowMs : Int) : ℝ) < moment := by
    push_cast
    linarith
  exact decide_eq_true (by exact_mod_cast later)

theorem inMinute_cons (start : ℝ) (now : Int) (moments : List Int)
    : inMinute start (now :: moments) ≤ inMinute start moments
      ∨ ((now : ℝ) < start + windowMs
        ∧ inMinute start (now :: moments) = inMinute start moments + 1) := by
  classical
  unfold inMinute
  by_cases inside : start ≤ now ∧ (now : ℝ) < start + windowMs
  · right
    exact ⟨inside.2, List.countP_cons_of_pos (decide_eq_true inside)⟩
  · left
    exact le_of_eq (List.countP_cons_of_neg (by simpa using inside))

-- What the windows know

def counted (windows : Windows) (key : String) (now : Int) : List Int :=
  prune (now - windowMs) (held windows key)

theorem check_exempt {settings : Settings} {agentId : String}
    (h : exempt settings agentId = true) (windows : Windows) (meter : Meter) (now : Int)
    : checkRateLimit settings windows agentId meter now = (⟨true, none, none⟩, windows) :=
  if_pos h

theorem check_denied {settings : Settings} {windows : Windows} {agentId : String} {meter : Meter}
    {now : Int} (held : exempt settings agentId = false)
    (reached : (getLimit settings meter).reachedBy
      (counted windows (windowKey agentId meter) now).length = true)
    : checkRateLimit settings windows agentId meter now
      = (⟨false, some (retryAfter (counted windows (windowKey agentId meter) now) now),
          some (.finite 0)⟩,
        windows.set (windowKey agentId meter)
          (counted windows (windowKey agentId meter) now)) := by
  unfold checkRateLimit
  rw [if_neg (by simp [held])]
  exact if_pos reached

theorem check_allowed {settings : Settings} {windows : Windows} {agentId : String}
    {meter : Meter} {now : Int} (held : exempt settings agentId = false)
    (room : (getLimit settings meter).reachedBy
      (counted windows (windowKey agentId meter) now).length = false)
    : checkRateLimit settings windows agentId meter now
      = (⟨true, none, some ((getLimit settings meter).minus
          ((counted windows (windowKey agentId meter) now).length + 1))⟩,
        windows.set (windowKey agentId meter)
          (counted windows (windowKey agentId meter) now ++ [now])) := by
  unfold checkRateLimit
  rw [if_neg (by simp [held])]
  exact if_neg (by simpa [counted, Flair.RateLimits.held] using room)

/-- The windows hold what the log says of the last minute, and a key with a keepable limit
is held to no more calls than that, and had no more in any minute.
-/
structure Checks.Sound (settings : Settings) (state : Checks) : Prop where
  distinct : InsertionMap.Distinct state.windows
  recent : ∀ key cutoff, state.clock - windowMs ≤ cutoff
    → prune cutoff (held state.windows key)
      = prune cutoff (allowedMoments key state.allowed).reverse
  fits : ∀ agentId meter, (getLimit settings meter).keepable
    → (getLimit settings meter).exceededBy
        (held state.windows (windowKey agentId meter)).length = false
  bounded : ∀ agentId meter start, (getLimit settings meter).keepable
    → (getLimit settings meter).exceededBy
        (inMinute start (allowedMoments (windowKey agentId meter) state.allowed)) = false

section

variable {settings : Settings} {state : Checks}

theorem Number.keepable.none_exceeds {limit : Number} (h : limit.keepable)
    : limit.exceededBy 0 = false := by
  cases limit with
  | finite value =>
    obtain ⟨whole, _, rfl⟩ := h
    exact decide_eq_false (not_lt.mpr (by exact_mod_cast Nat.zero_le whole))
  | infinite => rfl
  | negativeInfinite => cases h
  | notANumber => rfl

theorem Checks.Sound.initially (windows : state.windows = []) (allowed : state.allowed = [])
    : state.Sound settings := by
  refine ⟨?_, ?_, ?_, ?_⟩
  · rw [windows]
    exact List.nodup_nil
  · intro key cutoff _
    rw [windows, allowed]
    rfl
  · intro agentId meter keepable
    rw [windows]
    exact keepable.none_exceeds
  · intro agentId meter start keepable
    rw [allowed]
    exact keepable.none_exceeds

variable {now : Int}

theorem Checks.Sound.counted_eq (h : state.Sound settings) (key : String)
    (later : state.clock ≤ now)
    : counted state.windows key now
      = prune (now - windowMs) (allowedMoments key state.allowed).reverse :=
  h.recent key _ (by omega)

theorem Checks.Sound.sweep (h : state.Sound settings) (later : state.clock ≤ now)
    : (state.after settings (.cleanup now)).Sound settings := by
  refine ⟨h.distinct.filterLists _, ?_, ?_, h.bounded⟩
  · intro key cutoff recent
    have longer : windowMs ≤ windowMs * 2 := by decide
    dsimp only [Checks.after] at recent ⊢
    rw [held_cleanup h.distinct, prune_prune (by omega)]
    exact h.recent key cutoff (by omega)
  · intro agentId meter keepable
    dsimp only [Checks.after]
    rw [held_cleanup h.distinct]
    exact Number.exceededBy_of_le (List.length_filter_le _ _) (h.fits agentId meter keepable)

theorem Checks.Sound.deny (h : state.Sound settings) (later : state.clock ≤ now) (key : String)
    : Checks.Sound settings
        ⟨state.windows.set key (counted state.windows key now), now, state.allowed⟩ := by
  refine ⟨InsertionMap.Distinct.modify h.distinct _, ?_, ?_, h.bounded⟩
  · intro other cutoff recent
    dsimp only at recent ⊢
    have before := h.recent other cutoff (by omega)
    rw [held_set]
    split
    · rename_i same
      subst same
      rw [counted, prune_prune recent]
      exact before
    · exact before
  · intro agentId meter keepable
    have before := h.fits agentId meter keepable
    dsimp only
    rw [held_set]
    split
    · rename_i same
      rw [same] at before
      exact Number.exceededBy_of_le (List.length_filter_le _ _) before
    · exact before

variable {agentId : String} {meter : Meter}

theorem Checks.Sound.allow (h : state.Sound settings) (later : state.clock ≤ now)
    (room : (getLimit settings meter).reachedBy
      (counted state.windows (windowKey agentId meter) now).length = false)
    : Checks.Sound settings
        ⟨state.windows.set (windowKey agentId meter)
            (counted state.windows (windowKey agentId meter) now ++ [now]),
          now, (windowKey agentId meter, now) :: state.allowed⟩ := by
  have counts := h.counted_eq (windowKey agentId meter) later
  refine ⟨InsertionMap.Distinct.modify h.distinct _, ?_, ?_, ?_⟩
  · intro other cutoff recent
    dsimp only at recent ⊢
    have before := h.recent other cutoff (by omega)
    rw [held_set, allowedMoments_cons]
    by_cases same : other = windowKey agentId meter
    · subst same
      rw [if_pos rfl, if_pos rfl, List.reverse_cons]
      unfold prune at before ⊢
      rw [List.filter_append, List.filter_append, ← before]
      congr 1
      exact prune_prune recent _
    · rw [if_neg same, if_neg (fun equal => same equal.symm)]
      exact before
  · intro otherAgent otherMeter keepable
    dsimp only
    rw [held_set]
    split
    · rename_i same
      obtain rfl := windowKey_meter same
      rw [List.length_append, List.length_singleton]
      exact keepable.room room
    · exact h.fits otherAgent otherMeter keepable
  · intro otherAgent otherMeter start keepable
    have before := h.bounded otherAgent otherMeter start keepable
    dsimp only
    rw [allowedMoments_cons]
    split
    · rename_i same
      obtain rfl := windowKey_meter same
      rw [← same] at before ⊢
      rcases inMinute_cons start now
        (allowedMoments (windowKey agentId meter) state.allowed) with same | ⟨inside, more⟩
      · exact Number.exceededBy_of_le same before
      rw [more]
      have few := inMinute_le_pruned inside
        (allowedMoments (windowKey agentId meter) state.allowed)
      rw [← counts] at few
      exact Number.exceededBy_of_le (Nat.succ_le_succ few) (keepable.room room)
    · exact before

theorem Checks.after_check (state : Checks) (checked : exempt settings agentId = false)
    (meter : Meter) (now : Int)
    : ((getLimit settings meter).reachedBy
          (counted state.windows (windowKey agentId meter) now).length = true
        ∧ state.after settings (.check agentId meter now)
          = ⟨state.windows.set (windowKey agentId meter)
              (counted state.windows (windowKey agentId meter) now), now, state.allowed⟩)
      ∨ ((getLimit settings meter).reachedBy
          (counted state.windows (windowKey agentId meter) now).length = false
        ∧ state.after settings (.check agentId meter now)
          = ⟨state.windows.set (windowKey agentId meter)
              (counted state.windows (windowKey agentId meter) now ++ [now]), now,
            (windowKey agentId meter, now) :: state.allowed⟩) := by
  cases reached : (getLimit settings meter).reachedBy
      (counted state.windows (windowKey agentId meter) now).length with
  | true =>
    left
    simp [Checks.after, check_denied checked reached]
  | false =>
    right
    simp [Checks.after, check_allowed checked reached, checked]

theorem Checks.Sound.step (h : state.Sound settings) {happening : Happening}
    (later : state.clock ≤ happening.moment)
    : (state.after settings happening).Sound settings := by
  cases happening with
  | cleanup now => exact h.sweep later
  | check agentId meter now =>
    cases checked : exempt settings agentId with
    | true =>
      have same : state.after settings (.check agentId meter now)
          = ⟨state.windows, now, state.allowed⟩ := by
        simp [Checks.after, check_exempt checked, checked]
      rw [same]
      refine ⟨h.distinct, ?_, h.fits, h.bounded⟩
      intro key cutoff recent
      have start : state.clock ≤ now := later
      dsimp only at recent
      exact h.recent key cutoff (by omega)
    | false =>
      rcases Checks.after_check state checked meter now with
        ⟨_, same⟩ | ⟨room, same⟩
      · rw [same]
        exact h.deny later _
      · rw [same]
        exact h.allow later room

theorem checks_step {happening : Happening} (later : state.clock ≤ happening.moment)
    : (checks settings).step state happening = some (state.after settings happening) :=
  if_pos later

theorem Checks.Sound.of_reachable (h : (checks settings).Reachable state)
    : state.Sound settings := by
  refine System.Reachable.invariant ?_ ?_ h
  · rintro start ⟨windows, allowed⟩
    exact .initially windows allowed
  intro before happening after sound taken
  simp only [checks, Option.ite_none_right_eq_some, Option.some.injEq] at taken
  obtain ⟨later, rfl⟩ := taken
  exact sound.step later

-- The advised wait

theorem Checks.Sound.held_shrinks (h : state.Sound settings) {key : String}
    {happening : Happening} (spared : sparesKey key state happening)
    : (held (state.after settings happening).windows key).Sublist (held state.windows key) := by
  cases happening with
  | cleanup now =>
    dsimp only [Checks.after]
    rw [held_cleanup h.distinct]
    exact List.filter_sublist
  | check agentId meter now =>
    have apart : key ≠ windowKey agentId meter := fun same => spared same.symm
    cases checked : exempt settings agentId with
    | true =>
      simp only [Checks.after, check_exempt checked]
      exact List.Sublist.refl _
    | false =>
      rcases state.after_check checked meter now with ⟨_, same⟩ | ⟨_, same⟩
      all_goals
        rw [same, held_set, if_neg apart]

theorem Checks.Sound.held_sublist (h : state.Sound settings) {key : String} {later : Checks}
    (run : (checks settings).ReachesUnder (sparesKey key) state later)
    : (held later.windows key).Sublist (held state.windows key) := by
  have both : later.Sound settings
      ∧ (held later.windows key).Sublist (held state.windows key) := by
    induction run with
    | refl => exact ⟨h, List.Sublist.refl _⟩
    | tail _ last ih =>
      obtain ⟨sound, fewer⟩ := ih
      obtain ⟨happening, spared, taken⟩ := last
      simp only [checks, Option.ite_none_right_eq_some, Option.some.injEq] at taken
      obtain ⟨after, rfl⟩ := taken
      exact ⟨sound.step after, (sound.held_shrinks spared).trans fewer⟩
  exact both.2

/-- A denied call under a keepable limit is told to wait until the oldest call it counted is
a minute old, and then one call fits.
-/
theorem Checks.Sound.retries (h : state.Sound settings)
    (keepable : (getLimit settings meter).keepable) (start : state.clock ≤ now)
    (denied : (checkRateLimit settings state.windows agentId meter now).1.allowed = false)
    : ∃ wait, (checkRateLimit settings state.windows agentId meter now).1.retryAfterMs
        = some (.finite wait)
      ∧ ∀ later, (checks settings).ReachesUnder (sparesKey (windowKey agentId meter))
          (state.after settings (.check agentId meter now)) later
        → ∀ moment : Int, later.clock ≤ moment → (now : Rat) + wait ≤ moment
        → (checkRateLimit settings later.windows agentId meter moment).1.allowed = true := by
  cases checked : exempt settings agentId with
  | true =>
    rw [check_exempt checked] at denied
    cases denied
  | false =>
    have sound := @Checks.Sound.step _ _ h (.check agentId meter now) start
    rcases state.after_check checked meter now with ⟨reached, same⟩ | ⟨room, _⟩
    · have within := Number.exceededBy_of_le
        (List.length_filter_le (fun moment => decide (now - windowMs < moment)) _)
        (h.fits agentId meter keepable)
      obtain ⟨some, free⟩ := keepable.freed reached within
      rw [check_denied checked reached]
      obtain ⟨oldest, rest, split⟩ := List.exists_cons_of_length_pos some
      refine ⟨(max (oldest + windowMs - now) 1000 : Int), by rw [split]; rfl, ?_⟩
      intro later run moment _ waited
      have past : oldest ≤ moment - windowMs := by
        have elapsed : now + max (oldest + windowMs - now) 1000 ≤ moment := by
          exact_mod_cast waited
        omega
      have fewer := sound.held_sublist run
      rw [same, held_set, if_pos rfl, split] at fewer
      have counts : (counted later.windows (windowKey agentId meter) moment).Sublist rest := by
        refine (fewer.filter _).trans ?_
        rw [List.filter_cons_of_neg (by simpa using past)]
        exact List.filter_sublist
      have room := free _ (Nat.lt_of_le_of_lt counts.length_le (by
        rw [split]
        exact Nat.lt_succ_self _))
      rw [check_allowed checked room]
    · rw [check_allowed checked room] at denied
      cases denied

-- Limits that cannot be kept

theorem run_allowed (checked : exempt settings agentId = false) {count : Nat}
    (room : ∀ fewer < count, (getLimit settings meter).reachedBy fewer = false)
    : ∃ state, (checks settings).Reachable state ∧ state.clock = 0
      ∧ held state.windows (windowKey agentId meter) = List.replicate count 0
      ∧ allowedMoments (windowKey agentId meter) state.allowed = List.replicate count 0 := by
  induction count with
  | zero => exact ⟨⟨[], 0, []⟩, ⟨_, ⟨rfl, rfl⟩, Relation.ReflTransGen.refl⟩, rfl, rfl, rfl⟩
  | succ count ih =>
    obtain ⟨state, reachable, clock, windows, allowed⟩ :=
      ih (fun fewer less => room fewer (Nat.lt_succ_of_lt less))
    have counts : counted state.windows (windowKey agentId meter) 0
        = List.replicate count 0 := by
      unfold counted prune
      rw [windows, List.filter_eq_self]
      intro moment member
      rw [List.eq_of_mem_replicate member]
      rfl
    have next := reachable.next (.check agentId meter 0) (checks_step (le_of_eq clock))
    rcases state.after_check checked meter 0 with ⟨reached, _⟩ | ⟨_, same⟩
    · rw [counts, List.length_replicate, room count (Nat.lt_succ_self _)] at reached
      cases reached
    rw [same, counts] at next
    refine ⟨_, next, rfl, ?_, ?_⟩
    · rw [held_set, if_pos rfl, List.replicate_succ']
    · rw [allowedMoments_cons, if_pos rfl, allowed, List.replicate_succ]

theorem inMinute_replicate (count : Nat) : inMinute 0 (List.replicate count 0) = count := by
  classical
  unfold inMinute
  rw [List.countP_replicate, if_pos]
  exact decide_eq_true (by norm_num [windowMs])

/-- An honest limiter that is on has limits that can be kept: a limit below every count
denies the first call without saying for how long, and a broken one is exceeded by a call.
-/
theorem keepable_of_honest (on : settings.enabled = true)
    (honest : ∀ state, (checks settings).Reachable state → Honest settings state)
    (meter : Meter)
    : (getLimit settings meter).keepable := by
  have checked : exempt settings "a" = false := by simp [exempt, on]
  cases first : (getLimit settings meter).reachedBy 0 with
  | true =>
    have start : (checks settings).Reachable ⟨[], 0, []⟩ :=
      ⟨_, ⟨rfl, rfl⟩, Relation.ReflTransGen.refl⟩
    have denied := @check_denied settings [] "a" meter 0 checked first
    obtain ⟨wait, told, _⟩ := (honest _ start).retries "a" meter 0 (Int.le_refl 0) (by
      rw [denied])
    rw [denied] at told
    cases told
  | false =>
    cases limit : getLimit settings meter with
    | infinite => trivial
    | notANumber => trivial
    | negativeInfinite =>
      rw [limit] at first
      cases first
    | finite value =>
      by_contra broken
      rw [limit] at first
      have positive : 0 < value := by
        have above := of_decide_eq_false first
        exact_mod_cast not_le.mp above
      have floorBelow : ((⌊value⌋₊ : Nat) : Rat) < value := by
        refine lt_of_le_of_ne (Nat.floor_le positive.le) ?_
        intro same
        have whole : 0 < ⌊value⌋₊ := by
          have cast : (0 : Rat) < (⌊value⌋₊ : Nat) := same ▸ positive
          exact_mod_cast cast
        exact broken ⟨_, whole, same.symm⟩
      have room : ∀ fewer < ⌊value⌋₊ + 1,
          (getLimit settings meter).reachedBy fewer = false := by
        intro fewer less
        rw [limit]
        have small : (fewer : Rat) ≤ (⌊value⌋₊ : Nat) := by
          exact_mod_cast Nat.le_of_lt_succ less
        exact decide_eq_false (not_le.mpr (lt_of_le_of_lt small floorBelow))
      obtain ⟨state, reachable, _, _, allowed⟩ := run_allowed checked room
      have bounded := (honest state reachable).bounded "a" meter 0 checked
      rw [allowed, inMinute_replicate, limit] at bounded
      have past : value < ((⌊value⌋₊ + 1 : Nat) : Rat) := by
        push_cast
        exact Nat.lt_floor_add_one value
      exact of_decide_eq_false bounded past

/-- The limiter keeps its word over all runs exactly when it is off or every limit is a
positive integer or none at all.
-/
theorem limiter_honest_iff (settings : Settings)
    : (∀ state, (checks settings).Reachable state → Honest settings state)
      ↔ settings.enabled = false ∨ ∀ meter, (getLimit settings meter).keepable := by
  constructor
  · intro honest
    cases on : settings.enabled with
    | false => exact Or.inl rfl
    | true => exact Or.inr (keepable_of_honest on honest)
  · rintro (off | keepable) state reachable
    · have skipped : ∀ agentId, exempt settings agentId = true := by
        intro agentId
        simp [exempt, off]
      refine ⟨?_, ?_⟩
      · intro agentId meter start checked
        rw [skipped] at checked
        cases checked
      · intro agentId meter now _ denied
        rw [check_exempt (skipped agentId)] at denied
        cases denied
    · have sound := Checks.Sound.of_reachable reachable
      exact ⟨fun agentId meter start _ => sound.bounded agentId meter start (keepable meter),
        fun agentId meter now start denied => sound.retries (keepable meter) start denied⟩

end

def zeroLimit : Settings where
  enabled := true
  limits
    | .general => some (.finite 0)
    | _ => none

/-- A limit of zero denies the first call of an agent and names no time to retry. -/
theorem zeroLimit_dishonest
    : ¬ ∀ settings state, (checks settings).Reachable state → Honest settings state := by
  intro honest
  obtain ⟨count, positive, same⟩ := @keepable_of_honest zeroLimit rfl
    (fun state reachable => honest zeroLimit state reachable) .general
  have zero : (0 : Rat) < count := by exact_mod_cast positive
  exact absurd same.symm (ne_of_gt zero)

end Flair.RateLimits
