import Flair.Catchup.OrgEventPages

/-! The OrgEvent catch-up of one participant: writers that stamp an event before they commit
it, any number of page reads and acknowledgements on any number of workers, one transition
for each awaited step. Follows `resources/OrgEventCatchup.ts`.
-/

namespace Flair.Catchup

open Dynamic Transition

-- Reads

/-- What the language and the environment answer: `dateOf` is `new Date(text).getTime()`,
`none` for an invalid date, and `backfillMs` what `parseBackfillMs` returns.
-/
structure CatchupSettings where
  dateOf : String → Option Int
  participantId : String
  backfillMs : Int

def orgEventStream : String := "org-event"

def CatchupSettings.key (settings : CatchupSettings) : ReadPositionKey where
  agentId := settings.participantId
  stream := orgEventStream

/-- `none` is the `RangeError` of a clock no date holds. -/
def initialPosition (nowMs backfillMs : Int) : Option String :=
  (IsoTime.toISOString (max 0 (nowMs - max 0 backfillMs))).map positionAfterTimestamp

/-- What `get` passes on to its search. -/
structure ResolvedAfter where
  after : String
  watermark : Option String
  since : Option String
  limit : Option (Option Rat)
deriving DecidableEq

/-- What `get` returns. -/
structure CatchupAnswer where
  events : List PositionedEvent
  watermark : Option String
  after : String
  nextAfter : String
  hasMore : Bool
  pageSize : Nat
deriving DecidableEq

/-- A search under way: the events stored when it began, `none` without a table, those it
has yielded and what the loop has collected of them.
-/
structure CatchupSearch where
  resolved : ResolvedAfter
  began : Option (List OrgEventRow)
  yielded : List OrgEventRow
  results : List PositionedEvent
deriving DecidableEq

/-- Where a page read is between two of its awaited steps. -/
inductive ReadStage where
  | idle
  | resolving (after since : Option String) (limit : Option (Option Rat))
  | ensuring (call : Nat) (limit : Option (Option Rat))
  | seeking (resolved : ResolvedAfter)
  | searching (search : CatchupSearch)
  | answered (answer : CatchupAnswer)
  | badRequest (error : String)

/-- The opts of the search's loop, at the clock of one row. -/
def ResolvedAfter.opts (resolved : ResolvedAfter) (participantId : String) (now : Int)
    : CatchupCollectOpts where
  participantId
  after := resolved.after
  since := resolved.since
  now

/-- The condition of `searchOrgEvents`: createdAt is not before the seek. -/
def seeks (resolved : ResolvedAfter) (event : OrgEventRow) : Bool :=
  match catchupSeekTimestamp resolved.after resolved.since with
  | some seekTs => decide (¬ textLt (event.createdAt.getD "") seekTs)
  | none => true

def CatchupSearch.page (search : CatchupSearch) : PositionPage :=
  pageAfter (sortCollected search.results) search.resolved.after
    (parsePageSize search.resolved.limit)

def CatchupSearch.answer (search : CatchupSearch) : CatchupAnswer where
  events := search.page.page
  watermark := search.resolved.watermark
  after := search.resolved.after
  nextAfter := search.page.nextAfter
  hasMore := search.page.hasMore
  pageSize := parsePageSize search.resolved.limit

def CatchupSearch.complete (search : CatchupSearch) : Bool :=
  (search.began.getD []).all fun event =>
    !seeks search.resolved event || decide (event ∈ search.yielded)

-- The state

/-- The clock, what each writer has stamped and not committed, the committed events, the
participant's read position and its page reads. Beside them the events some page has
listed, and the cursors of the pages read in sequence from a stored position without
`since`: their next cursors and the positions they list.
-/
structure CatchupState where
  clock : Int
  stamped : Nat → Option OrgEventRow
  events : List OrgEventRow
  positions : PositionState
  read : Nat → ReadStage
  returned : List OrgEventRow
  served : List String

def CatchupState.goto (state : CatchupState) (read : Nat) (stage : ReadStage) : CatchupState :=
  { state with read := Function.update state.read read stage }

def CatchupState.Reached (state : CatchupState) (cursor : String) : Prop :=
  cursor ∈ state.positions.committed ∨ cursor ∈ state.served

instance (state : CatchupState) (cursor : String) : Decidable (state.Reached cursor) :=
  inferInstanceAs (Decidable (_ ∨ _))

/-- The search continues from a cursor reached before, without `since`. -/
def CatchupState.InSequence (state : CatchupState) (search : CatchupSearch) : Prop :=
  state.Reached search.resolved.after ∧ search.resolved.since.getD "" = ""

instance (state : CatchupState) (search : CatchupSearch) : Decidable (state.InSequence search) :=
  inferInstanceAs (Decidable (_ ∧ _))

inductive CatchupLabel where
  | tick (elapsed : Int)
  | stamp (writer : Nat) (id : String) (targetIds : Option (List String))
      (expiresAt : Option String)
  | commit (writer : Nat)
  | ack (call worker : Nat) (table : Bool) (position : String)
  | readPosition (call : Nat) (readable : Bool)
  | putPosition (call : Nat) (now : String) (landed resolves : Bool)
  | rereadPosition (call : Nat) (readable : Bool)
  | get (read : Nat) (after since : Option String) (limit : Option (Option Rat))
  | resolve (read : Nat) (table readable : Bool) (call worker : Nat)
  | ensured (read : Nat)
  | search (read : Nat) (table : Bool)
  | yields (read : Nat) (event : OrgEventRow)
  | ends (read : Nat)

-- Steps

def positionMove (settings : CatchupSettings) (state : CatchupState) (label : PositionLabel)
    : Option CatchupState :=
  (positionStep settings.key state.positions label).map fun positions => { state with positions }

/-- `resolveAfter` once its `getReadPosition` has returned. -/
def resolveAfter (settings : CatchupSettings) (state : CatchupState) (read : Nat)
    (after since : Option String) (limit : Option (Option Rat)) (table readable : Bool)
    (call worker : Nat)
    : Option CatchupState :=
  let watermark := if table then readRow state.positions readable else none
  if after.getD "" ≠ "" then
    some (state.goto read (.seeking { after := after.getD "", watermark, since, limit }))
  else if watermark.getD "" ≠ "" then
    some (state.goto read (.seeking { after := watermark.getD "", watermark, since, limit }))
  else if since.getD "" ≠ "" then
    some (state.goto read (.seeking
      { after := positionAfterTimestamp (since.getD ""), watermark := none, since, limit }))
  else
    (initialPosition state.clock settings.backfillMs).bind fun initial =>
      positionMove settings (state.goto read (.ensuring call limit))
        (.ensure call worker table initial)

def resolveStep (settings : CatchupSettings) (state : CatchupState) (read : Nat)
    (table readable : Bool) (call worker : Nat)
    : Option CatchupState :=
  match state.read read with
  | .resolving after since limit =>
    resolveAfter settings state read after since limit table readable call worker
  | _ => none

def ensuredStep (state : CatchupState) (read : Nat) : Option CatchupState :=
  match state.read read with
  | .ensuring call limit =>
    match state.positions.call call with
    | .answered (.ensured created) =>
      some (state.goto read (.seeking
        { after := created, watermark := some created, since := none, limit }))
    | _ => none
  | _ => none

def searchStep (state : CatchupState) (read : Nat) (table : Bool) : Option CatchupState :=
  match state.read read with
  | .seeking resolved =>
    let began := if table then some state.events else none
    some (state.goto read (.searching { resolved, began, yielded := [], results := [] }))
  | _ => none

/-- The search yields a stored event once; the loop collects it at the clock it has then. -/
def yieldStep (settings : CatchupSettings) (state : CatchupState) (read : Nat)
    (event : OrgEventRow)
    : Option CatchupState :=
  match state.read read with
  | .searching search =>
    if search.began.isSome ∧ event ∈ state.events ∧ event ∉ search.yielded
        ∧ seeks search.resolved event = true then
      let opts := search.resolved.opts settings.participantId state.clock
      some (state.goto read (.searching { search with
        yielded := event :: search.yielded
        results := collectRow settings.dateOf opts search.results event }))
    else none
  | _ => none

def endStep (state : CatchupState) (read : Nat) : Option CatchupState :=
  match state.read read with
  | .searching search =>
    if search.complete then
      let listed := search.page.page.map PositionedEvent.event
      let cursors :=
        if state.InSequence search then
          search.page.nextAfter :: search.page.page.map PositionedEvent.position
        else []
      some { state.goto read (.answered search.answer) with
        returned := listed ++ state.returned
        served := cursors ++ state.served }
    else none
  | _ => none

/-- An event's stamp is the clock its writer reads before its commit. -/
def stampStep (state : CatchupState) (writer : Nat) (id : String)
    (targetIds : Option (List String)) (expiresAt : Option String)
    : Option CatchupState :=
  match state.stamped writer with
  | none =>
    (IsoTime.toISOString state.clock).map fun createdAt =>
      { state with
        stamped := Function.update state.stamped writer
          (some { id, createdAt := some createdAt, targetIds, expiresAt }) }
  | some _ => none

def commitStep (state : CatchupState) (writer : Nat) : Option CatchupState :=
  match state.stamped writer with
  | some event =>
    if state.events.all (fun other => other.id ≠ event.id) then
      some { state with
        stamped := Function.update state.stamped writer none
        events := event :: state.events }
    else none
  | none => none

def getStep (settings : CatchupSettings) (state : CatchupState) (read : Nat)
    (after since : Option String) (limit : Option (Option Rat))
    : Option CatchupState :=
  match state.read read with
  | .idle =>
    if since.getD "" ≠ "" ∧ settings.dateOf (since.getD "") = none then
      some (state.goto read (.badRequest "invalid since timestamp"))
    else some (state.goto read (.resolving after since limit))
  | _ => none

def catchupStep (settings : CatchupSettings) (state : CatchupState)
    : CatchupLabel → Option CatchupState
  | .tick elapsed =>
    if 0 ≤ elapsed then some { state with clock := state.clock + elapsed } else none
  | .stamp writer id targetIds expiresAt => stampStep state writer id targetIds expiresAt
  | .commit writer => commitStep state writer
  | .ack call worker table position =>
    if position ≠ "" then positionMove settings state (.advance call worker table position)
    else none
  | .readPosition call readable => positionMove settings state (.read call readable)
  | .putPosition call now landed resolves =>
    positionMove settings state (.put call now landed resolves)
  | .rereadPosition call readable => positionMove settings state (.reread call readable)
  | .get read after since limit => getStep settings state read after since limit
  | .resolve read table readable call worker =>
    resolveStep settings state read table readable call worker
  | .ensured read => ensuredStep state read
  | .search read table => searchStep state read table
  | .yields read event => yieldStep settings state read event
  | .ends read => endStep state read

def orgEventCatchup (settings : CatchupSettings) : System CatchupState CatchupLabel where
  initial state :=
    (∀ writer, state.stamped writer = none) ∧ state.events = []
      ∧ (readPositions settings.key).initial state.positions ∧ state.positions.row = none
      ∧ (∀ read, state.read read = .idle) ∧ state.returned = [] ∧ state.served = []
  step := catchupStep settings

end Flair.Catchup
