import Flair.Memories.Attributes
import Flair.Retrieval.Candidates

/-! Whether an event of a Memory subscription may reach a reader. Follows
`readableRowEvent` and `storedRowReadable` of `resources/MemoryFeed.ts`,
`closedSkillPayloadReadable` of `resources/skill-version-write.ts`, `skillRefReadable` of
`resources/instruction-version-record.ts` and `isOpenLiveRow`.
-/

namespace Flair.Feeds

open Dynamic Flair.Lexical Flair.Memories Flair.Retrieval

-- Tables over time

/-- The tables at every moment of a run, with whatever the writers did between two moments:
the Memory rows, whether a read of one throws, the head of a skill's version history, and
the clock.
-/
structure TableHistory where
  rowAt : Nat → Value → Option Record
  readFails : Nat → Value → Bool
  headAt : Nat → String → Except Unit (Option Record)
  now : Nat → Int

/-- `Memory.get(id)` at a moment. -/
def TableHistory.memoryGet (history : TableHistory) (moment : Nat) (id : Value)
    : Except Unit (Option Record) :=
  if history.readFails moment id then .error () else .ok (history.rowAt moment id)

/-- The moments of one check: its read of the stored row, the look at the clock, the read
of the version head and the read of the head's row.
-/
structure CheckMoments where
  row : Nat
  clock : Nat
  head : Nat
  live : Nat

-- Closed skills

def isLaterText (engine : Engine) (now : Int) (value : Option Value) : Bool :=
  (asString value).isSome && (engine.dateParse value).any fun time => decide (now < time)

def isOpenLiveRow (engine : Engine) (now : Int) (row : Record) : Bool :=
  !strictEquals (row.get "archived") (some (.bool true))
    && (isNullish (row.get "expiresAt") || isLaterText engine now (row.get "expiresAt"))
    && ((asString (row.get "validTo")).getD "" == "")

def skillRefReadable (ref : Record) (readerId : Option Value) : Bool :=
  let agentId := ref.get "agentId"
  let shared := strictEquals (ref.get "visibility") (some (.str "shared"))
  ((asString agentId).getD "" != "")
    && (shared || strictEquals (ref.get "visibility") (some (.str "private")))
    && (strictEquals agentId readerId || shared)

def headRowReadable (engine : Engine) (now : Int) (head live : Record) (subjectId readerId : String)
    : Bool :=
  strictEquals (live.get "id") (head.get "memoryId")
    && strictEquals (live.get "skillSubjectId") (some (.str subjectId))
    && strictEquals (live.get "agentId") (head.get "agentId")
    && isSkillWrite live
    && !strictEquals (live.get "archived") (some (.bool true))
    && [live.get "validTo", live.get "expiresAt"].all (fun bound =>
          isNullish bound || isLaterText engine now bound)
    && skillRefReadable live (some (.str readerId))

def skillSubjectOf (engine : Engine) (row : Record) : String :=
  match row.get "skillSubjectId" with
  | some (.str subjectId) => if subjectId = "" then engine.string (row.get "id") else subjectId
  | _ => engine.string (row.get "id")

/-- `closedSkillPayloadReadable`: any row but a closed skill's passes. -/
def closedSkillPayloadReadable (engine : Engine) (history : TableHistory)
    (moments : CheckMoments) (row : Record) (readerId : String)
    : Bool :=
  if !isSkillWrite row then true
  else if isOpenLiveRow engine (history.now moments.clock) row then true
  else if !skillRefReadable row (some (.str readerId)) then false
  else
    let subjectId := skillSubjectOf engine row
    match history.headAt moments.head subjectId with
    | .error _ | .ok none => false
    | .ok (some head) =>
      if !strictEquals (head.get "subjectType") (some (.str "skill"))
          || !strictEquals (head.get "subjectId") (some (.str subjectId))
          || !skillRefReadable head (head.get "agentId") then
        false
      else if strictEquals (head.get "kind") (some (.str "delete")) then
        decide (head.get "memoryId" = some .null)
          && skillRefReadable head (some (.str readerId))
      else if !strictEquals (head.get "kind") (some (.str "create"))
          && !strictEquals (head.get "kind") (some (.str "update")) then
        false
      else
        match head.get "memoryId" with
        | some (.str memoryId) =>
          if memoryId = "" then false
          else
            match history.memoryGet moments.live (.str memoryId) with
            | .ok (some live) =>
              headRowReadable engine (history.now moments.live) head live subjectId readerId
            | _ => false
        | _ => false

-- Events

/-- The value of an event: an object, an array, or anything `typeof` calls otherwise. -/
inductive EventValue where
  | row (fields : Record)
  | list (items : List Value)
  | plain (value : Option Value)

/-- An event of a subscription; `others` are its properties no check reads. -/
structure FeedEvent where
  type : Option Value
  id : Option Value
  value : EventValue
  others : Record

def promotionBoundEvent (contentHash : Option Value → String) (event : FeedEvent) : FeedEvent :=
  match event.value with
  | .row fields => { event with value := .row (applyPromotionBinding contentHash fields) }
  | _ => event

def storedRowAllowed (readerId : String) (stored : Record) : Bool :=
  (asString (stored.get "agentId")).isSome && scopeAllows readerId stored

def storedRowReadable (engine : Engine) (history : TableHistory) (moments : CheckMoments)
    (id : Option Value) (readerId : String)
    : Bool :=
  match id with
  | none | some .null => false
  | some id =>
    match history.memoryGet moments.row id with
    | .ok (some stored) =>
      storedRowAllowed readerId stored
        && closedSkillPayloadReadable engine history moments stored readerId
    | _ => false

def decidesItself (fields : Record) : Bool :=
  (asString (fields.get "agentId")).isSome && (fields.get "visibility").isSome

/-- `readableRowEvent`; an array has no owner, and no tags either. -/
def readableRowEvent (engine : Engine) (history : TableHistory) (stored payload : CheckMoments)
    (event : FeedEvent) (readerId : String)
    : Bool :=
  if !strictEquals event.type (some (.str "put"))
      && !strictEquals event.type (some (.str "invalidate")) then
    false
  else
    match event.value with
    | .row fields =>
      (if decidesItself fields then scopeAllows readerId fields
        else storedRowReadable engine history stored event.id readerId)
        && closedSkillPayloadReadable engine history payload fields readerId
    | .list _ => storedRowReadable engine history stored event.id readerId
    | .plain _ => false

theorem allowed_of_storedRowReadable {engine : Engine} {history : TableHistory}
    {moments : CheckMoments} {id : Option Value} {readerId : String}
    (readable : storedRowReadable engine history moments id readerId = true)
    : ∃ rowId stored, id = some rowId ∧ history.rowAt moments.row rowId = some stored
        ∧ scopeAllows readerId stored = true := by
  unfold storedRowReadable at readable
  split at readable
  · exact absurd readable Bool.false_ne_true
  · exact absurd readable Bool.false_ne_true
  rename_i rowId _
  split at readable
  · rename_i stored found
    simp only [storedRowAllowed, Bool.and_eq_true] at readable
    unfold TableHistory.memoryGet at found
    split at found
    · cases found
    · exact ⟨rowId, stored, rfl, Except.ok.inj found, readable.1.2⟩
  · exact absurd readable Bool.false_ne_true

end Flair.Feeds
