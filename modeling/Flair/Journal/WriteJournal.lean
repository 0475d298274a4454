import Flair.Foundations.Objects
import Flair.Foundations.Systems

/-! A write journal and its undo over rows that other writers may change at any time, one
transition for each awaited step. Follows `resources/write-journal.ts`.
-/

namespace Flair.Journal

open Dynamic Transition

universe u

-- Rows and entries

structure Stored where
  value : Record
  version : Nat
deriving DecidableEq

inductive Author where
  | journal
  | undo
  | other
deriving DecidableEq

/-- One journaled write. `applied` tells whether its commit staged anything. -/
structure Entry (Key : Type u) where
  key : Key
  before : Option Record
  after : Option Record
  applied : Bool
  version : Nat
deriving DecidableEq

/-- A write staged in a journaled transaction: a new value, or `none` for a deletion. A write
that does not land stages nothing at its commit.
-/
structure StagedWrite (Key : Type u) where
  key : Key
  value : Option Record
  lands : Bool

/-- What the undo finds on the site: the tables it can reach, the table of host pointers, and
the engine's `Date.parse`, where `none` is `NaN`.
-/
structure Site (Key : Type u) where
  known : Key → Bool
  pointer : Key → Bool
  dateParse : String → Option Int

/-- `tags?.includes("skill")` -/
def taggedSkill (row : Option Record) : Bool :=
  match row.bind fun row => row.get "tags" with
  | some (.arr tags) => tags.contains (.str "skill")
  | some (.str text) => decide ("skill".toList <:+: text.toList)
  | _ => false

def liveSkill (dateParse : String → Option Int) (now : Int) (row : Record) : Bool :=
  decide (row.get "archived" ≠ some (.bool true))
  && !truthy (row.get "validTo")
  && match row.get "expiresAt" with
    | none | some .null => true
    | some (.str text) => (dateParse text).any fun expiry => decide (now < expiry)
    | some _ => false

section Steps

variable {Key : Type u} [DecidableEq Key]

/-- `undoable`: the row is what the write left; a skill it created must still be live. -/
def Entry.undoable (entry : Entry Key) (dateParse : String → Option Int) (now : Int)
    (current : Option Record)
    : Bool :=
  if current ≠ entry.after then false
  else if entry.before.isSome || !taggedSkill entry.after then true
  else current.any (liveSkill dateParse now)

-- States

/-- Where the undo is between two awaited steps. -/
inductive UndoStage (Key : Type u) where
  | recording
  | reading (entry : Entry Key) (left : List (Entry Key))
  | transacting (entry : Entry Key) (left : List (Entry Key))
  | committing (entry : Entry Key) (left : List (Entry Key))
  | readingBack (entry : Entry Key) (left : List (Entry Key)) (undoVersion : Nat)
  | readingVersion (entry : Entry Key) (left : List (Entry Key)) (undoVersion : Nat)
  | failed (entry : Entry Key) (left : List (Entry Key))
  | rechecking (left : List (Entry Key))
  | recheckingVersion (entry : Entry Key) (left : List (Entry Key)) (current : Option Record)
  | returned (confirmed : Bool)
  | threw

/-- The store, who committed each version so far, and the journal. `touched` is a history of
the store: whether someone else has written a row since the undo's last read of it.
-/
structure JournalState (Key : Type u) where
  store : Key → Option Stored
  authorOf : Nat → Option Author
  entries : List (Entry Key)
  confirmed : Bool
  pointerChanged : Bool
  undone : List (Entry Key)
  versions : Key → Option Nat
  touched : Key → Bool
  stage : UndoStage Key

/-- `write` commits a journaled transaction, which may be dropped; `other` is a commit of
someone else. The undo's own reads may fail, what its transaction shows may be older than the
store, and its commit may be dropped or its answer lost.
-/
inductive JournalLabel (Key : Type u) where
  | write (version : Nat) (writes : List (StagedWrite Key)) (landed : Bool)
  | other (key : Key) (version : Nat) (value : Option Record)
  | undo (covered : Bool)
  | read (now : Int) (readable : Bool)
  | readInside (now : Int) (seen : Option Record) (readable : Bool)
  | commitFails
  | commit (now : Int) (version : Nat) (landed resolves : Bool)
  | readBack (readable : Bool)
  | readVersion (readable : Bool)
  | afterFailure (readable : Bool)
  | recheck (entry : Entry Key) (readable : Bool)
  | recheckVersion (readable : Bool)

namespace JournalState

def value (state : JournalState Key) (key : Key) : Option Record :=
  (state.store key).map Stored.value

def goto (state : JournalState Key) (stage : UndoStage Key) : JournalState Key :=
  { state with stage }

/-- `confirmed = false` -/
def doubt (state : JournalState Key) : JournalState Key := { state with confirmed := false }

/-- A pointer row that still holds a source, where the undo could not restore it. -/
def notePointer (state : JournalState Key) (site : Site Key) (key : Key)
    (current : Option Record)
    : JournalState Key :=
  if site.pointer key && !isNullish (current.bind fun row => row.get "hostSource") then
    { state with pointerChanged := true }
  else state

def MayCommit (state : JournalState Key) (author : Author) (version : Nat) : Prop :=
  state.authorOf version = none ∨ state.authorOf version = some author

instance (state : JournalState Key) (author : Author) (version : Nat)
    : Decidable (state.MayCommit author version) :=
  inferInstanceAs (Decidable (_ ∨ _))

def put (state : JournalState Key) (key : Key) (author : Author) (version : Nat)
    (value : Option Record)
    : JournalState Key :=
  { state with
    store := Function.update state.store key (value.map fun value => { value, version })
    authorOf := Function.update state.authorOf version (some author) }

end JournalState

-- Journaled commits

/-- The commit functions of a journaled transaction in order: each captures the value before
its write, staged by an earlier write of the transaction or stored, and the value after.
-/
def commitWrites (version : Nat)
    : List (StagedWrite Key) → (Key → Option Stored) → (Key → Option Stored) × List (Entry Key)
  | [], store => (store, [])
  | write :: rest, store =>
    let entry : Entry Key := {
      key := write.key
      before := (store write.key).map Stored.value
      after := if write.lands then write.value else none
      applied := write.lands
      version }
    let staged :=
      if write.lands then
        Function.update store write.key (write.value.map fun value => { value, version })
      else store
    let (final, entries) := commitWrites version rest staged
    (final, entry :: entries)

-- The undo

/-- The last loop, or the answer when nothing has been undone. -/
def recheckStage (state : JournalState Key) (left : List (Entry Key)) : UndoStage Key :=
  match left with
  | [] => .returned state.confirmed
  | _ => .rechecking left

/-- The next entry to undo: a write that was not applied is passed over, and one whose table
cannot be reached is a doubt.
-/
def nextEntry (site : Site Key) : List (Entry Key) → JournalState Key → JournalState Key
  | [], state => state.goto (recheckStage state state.undone)
  | entry :: left, state =>
    if !entry.applied then nextEntry site left state
    else if !site.known entry.key then nextEntry site left state.doubt
    else state.goto (.reading entry left)

/-- The version a row must have to be undone: the undo's own, where it has one. -/
def JournalState.expectedVersion (state : JournalState Key) (entry : Entry Key) : Nat :=
  (state.versions entry.key).getD entry.version

/-- What the guard of an undo's commit asks of the stored row. -/
def JournalState.guardPasses (state : JournalState Key) (site : Site Key) (now : Int)
    (entry : Entry Key)
    : Bool :=
  entry.undoable site.dateParse now (state.value entry.key)
  && (state.store entry.key).all fun stored =>
    decide (stored.version = state.expectedVersion entry)

/-- `byKey.set(key, { read, entry })` -/
def setUndone (entry : Entry Key) (undone : List (Entry Key)) : List (Entry Key) :=
  entry :: undone.filter fun other => decide (other.key ≠ entry.key)

/-- One step; `none` where the label does not apply. -/
def journalStep (site : Site Key) (state : JournalState Key)
    : JournalLabel Key → Option (JournalState Key)
  | .write version writes landed =>
    match state.stage with
    | .recording =>
      if state.MayCommit .journal version then
        let (store, entries) := commitWrites version writes state.store
        some { state with
          store := if landed then store else state.store
          authorOf := Function.update state.authorOf version (some .journal)
          entries := state.entries ++ entries }
      else none
    | _ => none
  | .other key version value =>
    if state.MayCommit .other version then
      some { state.put key .other version value with
        touched := Function.update state.touched key true }
    else none
  | .undo covered =>
    match state.stage with
    | .recording =>
      some (
        if covered then nextEntry site state.entries.reverse { state with confirmed := true }
        else state.goto .threw)
    | _ => none
  | .read now readable =>
    match state.stage with
    | .reading entry left =>
      let current := state.value entry.key
      some (
        if !readable then state.goto (.failed entry left)
        else if entry.undoable site.dateParse now current then
          state.goto (.transacting entry left)
        else nextEntry site left (state.notePointer site entry.key current).doubt)
    | _ => none
  | .readInside now seen readable =>
    match state.stage with
    | .transacting entry left =>
      some (state.goto (
        if readable && entry.undoable site.dateParse now seen then .committing entry left
        else .failed entry left))
    | _ => none
  | .commitFails =>
    match state.stage with
    | .committing entry left => some (state.goto (.failed entry left))
    | _ => none
  | .commit now version landed resolves =>
    match state.stage with
    | .committing entry left =>
      if state.guardPasses site now entry then
        if state.MayCommit .undo version then
          let committed := state.put entry.key .undo version entry.before
          let next := { committed with
            store := if landed then committed.store else state.store }
          some (next.goto (
            if resolves then .readingBack entry left version else .failed entry left))
        else none
      else
        some ((state.notePointer site entry.key (state.value entry.key)).goto
          (.failed entry left))
    | _ => none
  | .readBack readable =>
    match state.stage with
    | .readingBack entry left undoVersion =>
      some (
        if !readable then state.goto (.failed entry left)
        else
          { state with
            confirmed := state.confirmed && decide (state.value entry.key = entry.before)
          }.goto (.readingVersion entry left undoVersion))
    | _ => none
  | .readVersion readable =>
    match state.stage with
    | .readingVersion entry left undoVersion =>
      some (
        if !readable then state.goto (.failed entry left)
        else
          let own := (state.store entry.key).all fun stored =>
            decide (stored.version = undoVersion)
          nextEntry site left { state with
            confirmed := state.confirmed && own
            undone := setUndone entry state.undone
            versions := Function.update state.versions entry.key (some undoVersion) })
    | _ => none
  | .afterFailure readable =>
    match state.stage with
    | .failed entry left =>
      let current := state.value entry.key
      let noted :=
        if readable && decide (current ≠ entry.before) then
          state.notePointer site entry.key current
        else state
      some (nextEntry site left noted.doubt)
    | _ => none
  | .recheck entry readable =>
    match state.stage with
    | .rechecking left =>
      if entry ∈ left then
        let rest := left.erase entry
        some (
          if !readable then state.doubt.goto (recheckStage state.doubt rest)
          else
            { state with touched := Function.update state.touched entry.key false }.goto
              (.recheckingVersion entry rest (state.value entry.key)))
      else none
    | _ => none
  | .recheckVersion readable =>
    match state.stage with
    | .recheckingVersion entry left current =>
      let own := (state.store entry.key).all fun stored =>
        decide (some stored.version = state.versions entry.key)
      let next :=
        if !readable then state.doubt
        else if decide (current = entry.before) && own then state
        else (state.notePointer site entry.key current).doubt
      some (next.goto (recheckStage next left))
    | _ => none

structure JournalState.Fresh (state : JournalState Key) : Prop where
  recording : state.stage = .recording
  entries : state.entries = []
  undone : state.undone = []
  versions : ∀ key, state.versions key = none
  others : ∀ version author, state.authorOf version = some author → author = .other
  stored : ∀ key stored, state.store key = some stored
    → state.authorOf stored.version = some .other

def journals (site : Site Key) : System (JournalState Key) (JournalLabel Key) where
  initial := JournalState.Fresh
  step := journalStep site

end Steps

end Flair.Journal
