import Flair.Foundations.IsoTime
import Flair.Foundations.Objects

/-! The expiry of ephemeral memories and the deletions that are recorded. Follows
`resources/memory-durability.ts` and `resources/memory-deletion-history.ts`.
-/

namespace Flair.Memories

open Dynamic

/-- What stamping an expiry answers: the content to write, a refusal message, or a thrown
`RangeError`.
-/
inductive Stamped where
  | accepted (content : Record)
  | refused (message : String)
  | threw

def ephemeral : Value := .str "ephemeral"

def millisPerHour : Int := 3600000

/-- A number as a date takes it: its fraction is dropped. -/
def toMillis (amount : Rat) : Int := if 0 ≤ amount then amount.floor else amount.ceil

def expiryInstant (value : Option Value) : Option Int :=
  (asString value).bind fun text =>
    (IsoTime.readTimestamp text).bind fun parts =>
      if parts.onCalendar then parts.instant else none

def stampSupplied (content : Record) (value : Option Value) (incoming : Bool) (now : Int)
    : Stamped :=
  match expiryInstant value with
  | none => .refused "expiresAt must be a valid UTC ISO date"
  | some parsed =>
    if incoming && decide (parsed < 0 ∨ now + 365 * 24 * millisPerHour < parsed) then
      .refused
        "incoming expiresAt must be between the Unix epoch and receiver time plus 365 days"
    else
      match IsoTime.toISOString parsed with
      | none => .threw
      | some text => .accepted (content.set "expiresAt" (.str text))

def stampLifetime (content : Record) (now : Int) (ttlHours : Option Rat) : Stamped :=
  match ttlHours.bind (fun hours => IsoTime.toISOString (toMillis (now + hours * millisPerHour)))
    with
  | none => .threw
  | some text => .accepted (content.set "expiresAt" (.str text))

def inheritDurability (content : Record) (preExisting : Option Record) : Record :=
  match preExisting.bind (fun row => row.get "durability") with
  | none | some .null => content
  | some durability =>
    if isNullish (content.get "durability") then content.set "durability" durability
    else content

theorem get_inheritDurability_other {field : String} (content : Record)
    (preExisting : Option Record) (other : field ≠ "durability")
    : (inheritDurability content preExisting).get field = content.get field := by
  unfold inheritDurability
  split
  · rfl
  · rfl
  · split
    · simp [other]
    · rfl

/-- `stampEphemeralExpiry`; `ttlHours` is the configured lifetime, `none` when it is no
number.
-/
def stampEphemeralExpiry (content : Record) (preExisting : Option Record) (incoming : Bool)
    (now : Int) (ttlHours : Option Rat)
    : Stamped :=
  let content := inheritDurability content preExisting
  let wasEphemeral :=
    decide (preExisting.bind (fun row => row.get "durability") = some ephemeral)
  let explicitExpiry := content.has "expiresAt"
  let storedExpiry := preExisting.bind (fun row => row.get "expiresAt")
  if content.get "durability" ≠ some ephemeral then
    .accepted
      (if wasEphemeral && !explicitExpiry then content.set "expiresAt" .null else content)
  else if explicitExpiry then stampSupplied content (content.get "expiresAt") incoming now
  else if !incoming && wasEphemeral && !isNullish storedExpiry then
    stampSupplied content storedExpiry incoming now
  else stampLifetime content now ttlHours

end Flair.Memories
