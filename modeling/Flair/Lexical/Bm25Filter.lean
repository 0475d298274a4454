import Flair.Foundations.Objects

/-! The condition lists of a query and the filters a record passes before it is scored.
Follows `resources/bm25-filter.ts`.
-/

namespace Flair.Lexical

open Dynamic

/-- What the engine answers for any value: `Date.parse(value)` and
`new Date(value).getTime()`, where `none` is `NaN`, and `String(value)`.
-/
structure Engine where
  dateParse : Option Value → Option Int
  dateTime : Option Value → Option Int
  string : Option Value → String

inductive Condition where
  | leaf (attr comparator : String) (value : Option Value)
  | group (operator : String) (conditions : List Condition)

def fieldEquals (actual value : Option Value) : Bool :=
  match actual with
  | some (.arr items) => items.any fun item => strictEquals (some item) value
  | _ => strictEquals actual value

def matchLeaf (attr comparator : String) (value : Option Value) (record : Record)
    : Bool :=
  if comparator = "equals" then fieldEquals (record.get attr) value
  else if comparator = "not_equal" then !fieldEquals (record.get attr) value
  else false

mutual
def matchCondition : Condition → Record → Bool
  | .leaf attr comparator value, record => matchLeaf attr comparator value record
  | .group operator conditions, record =>
    if operator = "or" then matchesAny conditions record
    else matchesConditions conditions record

def matchesAny : List Condition → Record → Bool
  | [], _ => false
  | condition :: rest, record => matchCondition condition record || matchesAny rest record

def matchesConditions : List Condition → Record → Bool
  | [], _ => true
  | condition :: rest, record =>
    matchCondition condition record && matchesConditions rest record
end

/-- `sinceDate` is a date, maybe an invalid one. -/
structure RecordTimeFilters where
  sinceDate : Option (Option Int)
  asOf : Option String

def isPast (engine : Engine) (bound : Option Value) (now : Int) : Bool :=
  truthy bound && (engine.dateParse bound).any fun instant => decide (instant < now)

/-- Created before `sinceDate`; an invalid date is before nothing. -/
def isBefore (engine : Engine) (createdAt : Option Value) (sinceDate : Option (Option Int))
    : Bool :=
  match sinceDate with
  | some (some since) =>
    truthy createdAt && (engine.dateTime createdAt).any fun created => decide (created < since)
  | _ => false

/-- The texts `asOf` is compared with, when it is given. -/
def comparedWith (asOf : Option String) (bound : Option Value) : Option (String × String) :=
  match asOf, bound with
  | some instant, some (.str text) =>
    if instant ≠ "" ∧ text ≠ "" then some (instant, text) else none
  | _, _ => none

def passesRecordFilters (engine : Engine) (record : Record) (filters : RecordTimeFilters)
    (now : Int) : Bool :=
  !(isPast engine (record.get "expiresAt") now
    || isBefore engine (record.get "createdAt") filters.sinceDate
    || (comparedWith filters.asOf (record.get "validFrom")).any
        (fun (asOf, validFrom) => decide (textLt asOf validFrom))
    || (comparedWith filters.asOf (record.get "validTo")).any
        (fun (asOf, validTo) => !decide (textLt asOf validTo))
    || isPast engine (record.get "validTo") now)

def isAllowedBm25Candidate (engine : Engine) (record : Record) (conditions : List Condition)
    (filters : RecordTimeFilters) (now : Int) : Bool :=
  matchesConditions conditions record && passesRecordFilters engine record filters now

-- What a filter reads

mutual
def attributes : Condition → List String
  | .leaf attr _ _ => [attr]
  | .group _ conditions => attributesOf conditions

def attributesOf : List Condition → List String
  | [] => []
  | condition :: rest => attributes condition ++ attributesOf rest
end

def AgreeOn (fields : List String) (left right : Record) : Prop :=
  ∀ field ∈ fields, left.get field = right.get field

theorem AgreeOn.mono {some more : List String} {left right : Record}
    (h : AgreeOn more left right) (part : ∀ field ∈ some, field ∈ more)
    : AgreeOn some left right :=
  fun field member => h field (part field member)

theorem matchLeaf_congr {attr comparator : String} {value : Option Value}
    {left right : Record} (h : left.get attr = right.get attr)
    : matchLeaf attr comparator value left = matchLeaf attr comparator value right := by
  simp only [matchLeaf, h]

mutual
theorem matchCondition_congr : ∀ (condition : Condition) {left right : Record},
    AgreeOn (attributes condition) left right
    → matchCondition condition left = matchCondition condition right
  | .leaf attr comparator value, left, right, h => by
      rw [matchCondition, matchCondition]
      exact matchLeaf_congr (h attr (by simp [attributes]))
  | .group operator conditions, left, right, h => by
      rw [attributes] at h
      rw [matchCondition, matchCondition, matchesAny_congr conditions h,
        matchesConditions_congr conditions h]

theorem matchesAny_congr : ∀ (conditions : List Condition) {left right : Record},
    AgreeOn (attributesOf conditions) left right
    → matchesAny conditions left = matchesAny conditions right
  | [], _, _, _ => by rw [matchesAny, matchesAny]
  | condition :: rest, left, right, h => by
      rw [attributesOf] at h
      rw [matchesAny, matchesAny,
        matchCondition_congr condition (h.mono (by simp +contextual)),
        matchesAny_congr rest (h.mono (by simp +contextual))]

theorem matchesConditions_congr : ∀ (conditions : List Condition) {left right : Record},
    AgreeOn (attributesOf conditions) left right
    → matchesConditions conditions left = matchesConditions conditions right
  | [], _, _, _ => by rw [matchesConditions, matchesConditions]
  | condition :: rest, left, right, h => by
      rw [attributesOf] at h
      rw [matchesConditions, matchesConditions,
        matchCondition_congr condition (h.mono (by simp +contextual)),
        matchesConditions_congr rest (h.mono (by simp +contextual))]
end

def filterFields : List String := ["expiresAt", "createdAt", "validFrom", "validTo"]

theorem passesRecordFilters_congr (engine : Engine) (filters : RecordTimeFilters) (now : Int)
    {left right : Record} (h : AgreeOn filterFields left right)
    : passesRecordFilters engine left filters now
      = passesRecordFilters engine right filters now := by
  have expiresAt := h "expiresAt" (by simp [filterFields])
  have createdAt := h "createdAt" (by simp [filterFields])
  have validFrom := h "validFrom" (by simp [filterFields])
  have validTo := h "validTo" (by simp [filterFields])
  simp only [passesRecordFilters, expiresAt, createdAt, validFrom, validTo]

end Flair.Lexical
