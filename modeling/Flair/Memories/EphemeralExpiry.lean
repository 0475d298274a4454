import Flair.Foundations.IsoReading
import Flair.Memories.Durability
import Mathlib.Tactic.NormNum

/-! What stamping an expiry leaves in the content it is given. An accepted ephemeral write
ends with a canonical expiry of the caller's millisecond or of the configured lifetime, and
a refused one with the expiry it came with. Follows `resources/memory-durability.ts`.
-/

namespace Flair.Memories

open Dynamic

/-- How `stampEphemeralExpiry` ends. -/
inductive StampOutcome where
  | accepted
  | refused (message : String)
  | threw

/-- `stampEphemeralExpiry` with the content it changes in place: what the content is when it
ends, and how it ends.
-/
def stampInPlace (content : Record) (preExisting : Option Record) (incoming : Bool) (now : Int)
    (ttlHours : Option Rat)
    : Record × StampOutcome :=
  let content := inheritDurability content preExisting
  let stored := preExisting.bind (fun row => row.get "durability")
  let storedExpiry := preExisting.bind (fun row => row.get "expiresAt")
  let explicitExpiry := content.has "expiresAt"
  if content.get "durability" ≠ some ephemeral then
    if stored = some ephemeral ∧ ¬ explicitExpiry = true then
      (content.set "expiresAt" .null, .accepted)
    else (content, .accepted)
  else
    let carriedExpiry := !incoming && !explicitExpiry && decide (stored = some ephemeral)
      && !isNullish storedExpiry
    if explicitExpiry || carriedExpiry then
      match expiryInstant (if explicitExpiry then content.get "expiresAt" else storedExpiry) with
      | none => (content, .refused "expiresAt must be a valid UTC ISO date")
      | some parsed =>
        if incoming && decide (parsed < 0 ∨ now + 365 * 24 * millisPerHour < parsed) then
          (content, .refused
            "incoming expiresAt must be between the Unix epoch and receiver time plus 365 days")
        else
          match IsoTime.toISOString parsed with
          | none => (content, .threw)
          | some text => (content.set "expiresAt" (.str text), .accepted)
    else
      match ttlHours.bind fun hours => IsoTime.toISOString (toMillis (now + hours * millisPerHour))
        with
      | none => (content, .threw)
      | some text => (content.set "expiresAt" (.str text), .accepted)

-- What an accepted write ends with

def effectiveDurability (content : Record) (preExisting : Option Record) : Option Value :=
  let stored := preExisting.bind fun row => row.get "durability"
  if isNullish (content.get "durability") && !isNullish stored then stored
  else content.get "durability"

def wasEphemeral (preExisting : Option Record) : Bool :=
  decide (preExisting.bind (fun row => row.get "durability") = some ephemeral)

/-- The millisecond an ephemeral write expires at: the one it gives, the one it carries on
from the stored row, or the configured lifetime from now.
-/
def dueMillis (content : Record) (preExisting : Option Record) (incoming : Bool) (now : Int)
    (hours : Rat)
    : Option Int :=
  let storedExpiry := preExisting.bind fun row => row.get "expiresAt"
  if content.has "expiresAt" then expiryInstant (content.get "expiresAt")
  else if !incoming && wasEphemeral preExisting && !isNullish storedExpiry then
    expiryInstant storedExpiry
  else some (toMillis (now + hours * millisPerHour))

/-- An incoming expiry is taken from the Unix epoch to 365 days after it is received. -/
def acceptedIncoming (now parsed : Int) : Prop :=
  0 ≤ parsed ∧ parsed ≤ now + 365 * 24 * millisPerHour

structure StampedWell (content : Record) (preExisting : Option Record) (incoming : Bool)
    (now : Int) (hours : Rat) (stamped : Record) : Prop where
  durability : stamped.get "durability" = effectiveDurability content preExisting
  canonical : effectiveDurability content preExisting = some ephemeral
    → ∃ millis text, dueMillis content preExisting incoming now hours = some millis
      ∧ IsoTime.toISOString millis = some text
      ∧ stamped.get "expiresAt" = some (.str text)
      ∧ expiryInstant (some (.str text)) = some millis
  unstamped : effectiveDurability content preExisting ≠ some ephemeral
    → stamped.get "expiresAt"
      = if wasEphemeral preExisting && !content.has "expiresAt" then some .null
        else content.get "expiresAt"
  frame : ∀ field, field ≠ "durability" → field ≠ "expiresAt"
    → stamped.get field = content.get field

theorem expiryInstant_toISOString {millis : Int} {text : String}
    (h : IsoTime.toISOString millis = some text)
    : expiryInstant (some (.str text)) = some millis := by
  obtain ⟨parts, rfl, fits, instant, calendar⟩ := IsoTime.exists_parts_of_toISOString h
  simp [expiryInstant, asString, IsoTime.readTimestamp_text fits, calendar, instant]

section

variable {content stamped : Record} {preExisting : Option Record} {incoming : Bool} {now : Int}
  {hours : Rat}

theorem get_inheritDurability (content : Record) (preExisting : Option Record)
    : (inheritDurability content preExisting).get "durability"
      = effectiveDurability content preExisting := by
  unfold inheritDurability effectiveDurability
  dsimp only
  generalize preExisting.bind (fun row => row.get "durability") = stored
  cases stored with
  | none => simp [isNullish]
  | some durability =>
    cases durability with
    | null => simp [isNullish]
    | _ =>
      dsimp only
      split <;> simp_all [isNullish]

theorem has_inheritDurability (content : Record) (preExisting : Option Record)
    : (inheritDurability content preExisting).has "expiresAt" = content.has "expiresAt" := by
  unfold Record.has
  rw [get_inheritDurability_other content preExisting (by decide)]

theorem stampInPlace_other (tier : effectiveDurability content preExisting ≠ some ephemeral)
    : stampInPlace content preExisting incoming now (some hours)
      = (if wasEphemeral preExisting && !content.has "expiresAt"
          then (inheritDurability content preExisting).set "expiresAt" .null
          else inheritDurability content preExisting, .accepted) := by
  unfold stampInPlace
  dsimp only
  rw [get_inheritDurability, has_inheritDurability, if_pos tier]
  by_cases leaves : (wasEphemeral preExisting && !content.has "expiresAt") = true
  · rw [if_pos leaves, if_pos (by simpa [wasEphemeral] using leaves)]
  · rw [if_neg leaves, if_neg (by simpa [wasEphemeral] using leaves)]

theorem stampInPlace_lifetime (tier : effectiveDurability content preExisting = some ephemeral)
    (absent : content.has "expiresAt" = false) (received : incoming = true) {text : String}
    (written : IsoTime.toISOString (toMillis (now + hours * millisPerHour)) = some text)
    : stampInPlace content preExisting incoming now (some hours)
      = ((inheritDurability content preExisting).set "expiresAt" (.str text), .accepted) := by
  unfold stampInPlace
  dsimp only
  rw [get_inheritDurability, has_inheritDurability, if_neg (not_not.mpr tier), absent, received]
  simp only [Bool.not_true, Bool.false_and, Bool.or_self, Bool.false_eq_true, if_false,
    Option.bind_some, written]

/-- The content of an accepted write: an ephemeral one is stamped with its canonical expiry,
and another is left alone unless it leaves ephemeral without an expiry of its own.
-/
theorem stampInPlace_accepted
    (h : stampInPlace content preExisting incoming now (some hours) = (stamped, .accepted))
    : (effectiveDurability content preExisting ≠ some ephemeral
        ∧ stamped = if wasEphemeral preExisting && !content.has "expiresAt"
            then (inheritDurability content preExisting).set "expiresAt" .null
            else inheritDurability content preExisting)
      ∨ (effectiveDurability content preExisting = some ephemeral
        ∧ ∃ millis text, dueMillis content preExisting incoming now hours = some millis
          ∧ IsoTime.toISOString millis = some text
          ∧ stamped = (inheritDurability content preExisting).set "expiresAt" (.str text)
          ∧ (incoming = true → content.has "expiresAt" = true
            → acceptedIncoming now millis)) := by
  by_cases tier : effectiveDurability content preExisting = some ephemeral
  · right
    refine ⟨tier, ?_⟩
    unfold stampInPlace at h
    dsimp only at h
    rw [get_inheritDurability, has_inheritDurability,
      get_inheritDurability_other content preExisting (by decide), if_neg (not_not.mpr tier)] at h
    split at h
    · rename_i supplied
      have due : dueMillis content preExisting incoming now hours
          = expiryInstant (if content.has "expiresAt" then content.get "expiresAt"
              else preExisting.bind fun row => row.get "expiresAt") := by
        unfold dueMillis wasEphemeral
        cases explicit : content.has "expiresAt" with
        | true => rfl
        | false =>
          rw [explicit] at supplied
          simp only [Bool.not_false, Bool.and_true, Bool.false_or] at supplied
          simp only [Bool.false_eq_true, if_false]
          rw [if_pos supplied]
      split at h
      · cases h
      rename_i parsed read
      split at h
      · cases h
      rename_i within
      split at h
      · cases h
      rename_i text written
      cases h
      refine ⟨parsed, text, due.trans read, written, rfl, ?_⟩
      intro received _
      rw [received, Bool.true_and, decide_eq_true_eq] at within
      unfold acceptedIncoming
      omega
    · rename_i unsupplied
      split at h
      · cases h
      rename_i text written
      cases h
      rw [Bool.or_eq_true, not_or, Bool.not_eq_true, Bool.not_eq_true] at unsupplied
      obtain ⟨absent, fresh⟩ := unsupplied
      rw [absent] at fresh ⊢
      refine ⟨_, text, ?_, written, rfl, fun _ present => by cases present⟩
      simp only [Bool.not_false, Bool.and_true] at fresh
      simp [dueMillis, wasEphemeral, absent, fresh]
  · left
    rw [stampInPlace_other tier] at h
    exact ⟨tier, (congrArg Prod.fst h).symm⟩

theorem stampInPlace_canonical {later millis : Int} {text : String}
    (tier : effectiveDurability content preExisting = some ephemeral)
    (written : IsoTime.toISOString millis = some text)
    (expiry : content.get "expiresAt" = some (.str text))
    (received : incoming = true → acceptedIncoming later millis)
    : stampInPlace content preExisting incoming later (some hours)
      = (inheritDurability content preExisting, .accepted) := by
  have present : content.has "expiresAt" = true := by
    unfold Record.has
    rw [expiry]
    rfl
  have same : (inheritDurability content preExisting).set "expiresAt" (.str text)
      = inheritDurability content preExisting := by
    refine Record.set_eq_self ?_
    rw [get_inheritDurability_other content preExisting (by decide), expiry]
  have within : ¬ (incoming && decide (millis < 0 ∨ later + 365 * 24 * millisPerHour < millis))
      = true := by
    rw [Bool.and_eq_true, decide_eq_true_eq]
    rintro ⟨arrived, outside⟩
    have range := received arrived
    unfold acceptedIncoming at range
    omega
  unfold stampInPlace
  dsimp only
  rw [get_inheritDurability, has_inheritDurability,
    get_inheritDurability_other content preExisting (by decide), if_neg (not_not.mpr tier),
    present, Bool.true_or, if_pos rfl, if_pos rfl, expiry, expiryInstant_toISOString written]
  dsimp only
  rw [if_neg within, written]
  dsimp only
  rw [same]

theorem inheritDurability_self
    (h : stamped.get "durability" = effectiveDurability content preExisting)
    : inheritDurability stamped preExisting = stamped := by
  unfold inheritDurability
  unfold effectiveDurability at h
  dsimp only at h
  generalize preExisting.bind (fun row => row.get "durability") = stored at h
  cases stored with
  | none => rfl
  | some durability =>
    cases durability with
    | null => rfl
    | _ =>
      dsimp only
      rw [if_neg]
      rw [h]
      split <;> simp_all [isNullish]

theorem effectiveDurability_self
    (h : stamped.get "durability" = effectiveDurability content preExisting)
    : effectiveDurability stamped preExisting = effectiveDurability content preExisting := by
  rw [← get_inheritDurability stamped preExisting, inheritDurability_self h, h]

theorem stampedWell_of_accepted
    (h : stampInPlace content preExisting incoming now (some hours) = (stamped, .accepted))
    : StampedWell content preExisting incoming now hours stamped := by
  have kept := get_inheritDurability content preExisting
  rcases stampInPlace_accepted h with
    ⟨tier, rfl⟩ | ⟨tier, millis, text, due, written, rfl, _⟩
  · refine ⟨?_, fun other => absurd other tier, fun _ => ?_, ?_⟩
    · split <;> simp [kept]
    · split
      · simp
      · rw [get_inheritDurability_other content preExisting (by decide)]
    · intro field apart other
      rw [← get_inheritDurability_other content preExisting apart]
      split <;> simp [other]
  · refine ⟨by simp [kept], fun _ => ⟨millis, text, due, written, by simp, ?_⟩,
      fun other => absurd tier other, ?_⟩
    · exact expiryInstant_toISOString written
    · intro field apart other
      rw [← get_inheritDurability_other content preExisting apart]
      simp [other]

/-- Stamping an accepted content again changes nothing, at any later time, unless it arrives
from elsewhere with an expiry that only the configured lifetime chose and that lies outside
the range of incoming expiries.
-/
theorem stampInPlace_again
    (h : stampInPlace content preExisting incoming now (some hours) = (stamped, .accepted))
    (range : incoming = true → content.has "expiresAt" = false
      → effectiveDurability content preExisting = some ephemeral
      → acceptedIncoming now (toMillis (now + hours * millisPerHour)))
    {later : Int} (after : now ≤ later)
    : stampInPlace stamped preExisting incoming later (some hours) = (stamped, .accepted) := by
  have well := stampedWell_of_accepted h
  have tierKept := effectiveDurability_self well.durability
  have inherited := inheritDurability_self well.durability
  rcases stampInPlace_accepted h with
    ⟨tier, same⟩ | ⟨tier, millis, text, due, written, same, received⟩
  · rw [stampInPlace_other (tierKept ▸ tier), inherited]
    by_cases leaves : (wasEphemeral preExisting && !content.has "expiresAt") = true
    · have present : stamped.has "expiresAt" = true := by
        rw [same, if_pos leaves]
        simp [Record.has]
      rw [if_neg (by simp [present])]
    · rw [if_neg leaves] at same
      have presence : stamped.has "expiresAt" = content.has "expiresAt" := by
        rw [same, has_inheritDurability]
      rw [presence, if_neg leaves]
  · have expiry : stamped.get "expiresAt" = some (.str text) := by
      rw [same]
      simp
    have again := @stampInPlace_canonical stamped preExisting incoming hours later millis text
      (tierKept.trans tier) written expiry ?_
    · rw [again, inherited]
    intro arrived
    have taken : acceptedIncoming now millis := by
      cases explicit : content.has "expiresAt" with
      | true => exact received arrived explicit
      | false =>
        have lifetime := range arrived explicit tier
        simp only [dueMillis, explicit, arrived, Bool.false_eq_true, if_false, Bool.not_true,
          Bool.false_and, Option.some.injEq] at due
        exact due ▸ lifetime
    exact ⟨taken.1, by have := taken.2; omega⟩

theorem stampInPlace_unaccepted {left : Record} {outcome : StampOutcome}
    (h : stampInPlace content preExisting incoming now (some hours) = (left, outcome))
    (unaccepted : outcome ≠ .accepted)
    : left = inheritDurability content preExisting := by
  unfold stampInPlace at h
  dsimp only at h
  split at h
  · split at h <;> cases h <;> exact absurd rfl unaccepted
  split at h
  · split at h
    · exact (congrArg Prod.fst h).symm
    split at h
    · exact (congrArg Prod.fst h).symm
    split at h
    · exact (congrArg Prod.fst h).symm
    · cases h
      exact absurd rfl unaccepted
  · split at h
    · exact (congrArg Prod.fst h).symm
    · cases h
      exact absurd rfl unaccepted

/-- Stamping an expiry: an accepted write ends well and stays as it is when it is stamped
again, except that an incoming one may be refused then for a lifetime beyond the range of
incoming expiries; a refused write keeps the expiry it came with.
-/
theorem stampInPlace_contract (content : Record) (preExisting : Option Record) (incoming : Bool)
    (now : Int) (hours : Rat)
    : (∀ stamped,
        stampInPlace content preExisting incoming now (some hours) = (stamped, .accepted)
        → StampedWell content preExisting incoming now hours stamped
          ∧ ((incoming = true → content.has "expiresAt" = false
              → effectiveDurability content preExisting = some ephemeral
              → acceptedIncoming now (toMillis (now + hours * millisPerHour)))
            → ∀ later, now ≤ later
              → stampInPlace stamped preExisting incoming later (some hours)
                = (stamped, .accepted)))
      ∧ ∀ left message,
        stampInPlace content preExisting incoming now (some hours) = (left, .refused message)
        → left.get "expiresAt" = content.get "expiresAt" := by
  refine ⟨fun stamped accepted => ⟨stampedWell_of_accepted accepted, ?_⟩, ?_⟩
  · intro range later after
    exact stampInPlace_again accepted range after
  · intro left message refused
    rw [stampInPlace_unaccepted refused (by simp)]
    exact get_inheritDurability_other content preExisting (by decide)

end

-- Where an expiry stays or is refused the second time

theorem toMillis_intCast (amount : Int) : toMillis amount = amount := by
  unfold toMillis
  split
  · exact Rat.floor_intCast amount
  · exact Rat.ceil_intCast amount

def datedMemory (durability : String) : Record :=
  Record.ofFields [("durability", .str durability),
    ("expiresAt", .str "2025-09-01T00:00:00.000Z")]

/-- A permanent write keeps a canonical expiry it gives, also over an ephemeral row, and an
incoming write with a lifetime over a year is refused when it is stamped again.
-/
theorem stamping_is_not_exact
    : (¬ ∀ (content : Record) (preExisting : Option Record) (incoming : Bool) (now : Int)
        (hours : Rat) (stamped : Record),
        stampInPlace content preExisting incoming now (some hours) = (stamped, .accepted)
        → (∃ millis text, IsoTime.toISOString millis = some text
          ∧ stamped.get "expiresAt" = some (.str text))
        → effectiveDurability content preExisting = some ephemeral)
      ∧ (¬ ∀ (content : Record) (preExisting : Option Record) (incoming : Bool) (now : Int)
        (hours : Rat) (stamped : Record),
        stampInPlace content preExisting incoming now (some hours) = (stamped, .accepted)
        → wasEphemeral preExisting = true
        → effectiveDurability content preExisting ≠ some ephemeral
        → stamped.get "expiresAt" = some .null)
      ∧ ¬ ∀ (content : Record) (preExisting : Option Record) (incoming : Bool) (now : Int)
        (hours : Rat) (stamped : Record),
        stampInPlace content preExisting incoming now (some hours) = (stamped, .accepted)
        → stampInPlace stamped preExisting incoming now (some hours) = (stamped, .accepted) := by
  have durability (tier : String) : (datedMemory tier).get "durability" = some (.str tier) := by
    simp [datedMemory, Record.ofFields]
  have expiry (tier : String) : (datedMemory tier).get "expiresAt"
      = some (.str "2025-09-01T00:00:00.000Z") := by
    simp [datedMemory, Record.ofFields]
  have kept (preExisting : Option Record) :
      effectiveDurability (datedMemory "permanent") preExisting = some (.str "permanent") := by
    simp [effectiveDurability, durability, isNullish]
  have other (preExisting : Option Record) :
      effectiveDurability (datedMemory "permanent") preExisting ≠ some ephemeral := by
    rw [kept]
    simp [ephemeral]
  have present (tier : String) : (datedMemory tier).has "expiresAt" = true := by
    simp [Record.has, expiry]
  have stays (preExisting : Option Record) :
      stampInPlace (datedMemory "permanent") preExisting false 0 (some 24)
        = (datedMemory "permanent", .accepted) := by
    have self : inheritDurability (datedMemory "permanent") preExisting
        = datedMemory "permanent" :=
      inheritDurability_self ((durability "permanent").trans (kept preExisting).symm)
    rw [stampInPlace_other (other preExisting), present, self]
    simp
  refine ⟨?_, ?_, ?_⟩
  · intro exact
    exact other none (exact _ none false 0 24 _ (stays none)
      ⟨1756684800000, "2025-09-01T00:00:00.000Z", by decide, expiry "permanent"⟩)
  · intro cleared
    have stored : wasEphemeral (some (datedMemory "ephemeral")) = true := by
      simp [wasEphemeral, durability, ephemeral]
    have gone := cleared _ _ false 0 24 _ (stays (some (datedMemory "ephemeral"))) stored
      (other _)
    rw [expiry] at gone
    cases gone
  · intro again
    let fresh : Record := (∅ : Record).set "durability" ephemeral
    have tier : effectiveDurability fresh none = some ephemeral := by
      simp [effectiveDurability, fresh, isNullish, ephemeral]
    have year : toMillis ((0 : Int) + (10000 : Rat) * millisPerHour) = 36000000000 := by
      have whole : ((0 : Int) : Rat) + (10000 : Rat) * millisPerHour = (36000000000 : Int) := by
        norm_num [millisPerHour]
      rw [whole, toMillis_intCast]
    have written : IsoTime.toISOString (toMillis ((0 : Int) + (10000 : Rat) * millisPerHour))
        = some "1971-02-21T16:00:00.000Z" := by
      rw [year]
      decide
    have first := stampInPlace_lifetime tier (by simp [Record.has, fresh]) rfl written
    have second := again _ _ _ _ _ _ first
    have stillEphemeral : effectiveDurability
        ((inheritDurability fresh none).set "expiresAt" (.str "1971-02-21T16:00:00.000Z")) none
        = some ephemeral := by
      simp [effectiveDurability, inheritDurability, fresh, isNullish, ephemeral]
    rcases stampInPlace_accepted second with ⟨left, _⟩ | ⟨_, millis, _, due, _, _, received⟩
    · exact left stillEphemeral
    have range := received rfl (by simp [Record.has])
    have same : some millis = some 36000000000 := by
      rw [← due, ← year, ← expiryInstant_toISOString written]
      simp [dueMillis, Record.has]
    cases same
    have beyond := range.2
    simp [millisPerHour] at beyond

end Flair.Memories
