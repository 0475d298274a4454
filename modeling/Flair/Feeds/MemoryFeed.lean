import Flair.Feeds.FeedChecks
import Flair.Relay.Requests

/-! The Memory feed. Follows `FeedMemories.connect` and `scopedSubscriptionRequest` of
`resources/MemoryFeed.ts`. The host's table subscription is a parameter, so it may replay,
repeat or withhold events and ignore the row filter it is given.
-/

namespace Flair.Feeds

open Dynamic Flair.Lexical Flair.Retrieval
open Flair.Relay (AgentAuthVerdict)

-- Subscription requests

/-- What reading an option of a caller's request may give: a JSON value, a number that is
not finite, an array with parts of any kind, or a function or other host object.
-/
inductive Supplied where
  | json (value : Value)
  | nonFinite
  | list (parts : List Supplied)
  | foreign

def isIdPart : Supplied → Bool
  | .json .null | .json (.str _) | .json (.num _) | .nonFinite => true
  | _ => false

def isIdOption : Supplied → Bool
  | .json (.str _) | .json (.num _) => true
  | .json (.arr items) => items.all fun item => isIdPart (.json item)
  | .list parts => parts.all isIdPart
  | _ => false

def isFlagOption : Supplied → Bool
  | .json (.bool _) => true
  | _ => false

def isFiniteOption : Supplied → Bool
  | .json (.num _) => true
  | _ => false

def subscriptionOptions : List (String × (Supplied → Bool)) := [
  ("id", isIdOption),
  ("isCollection", isFlagOption),
  ("onlyChildren", isFlagOption),
  ("startTime", isFiniteOption),
  ("previousCount", isFiniteOption),
  ("omitCurrent", isFlagOption)]

/-- An argument of `connect()`: a falsy one, another value without properties, or an
object, by what reading each property gives.
-/
inductive Argument where
  | falsy
  | plain
  | object (property : String → Option Supplied)

structure ScopedRequest where
  options : List (String × Supplied)
  rowFilter : Record → Bool

def scopedSubscriptionRequest (callerRequest : Argument) (rowFilter : Record → Bool)
    : ScopedRequest where
  options :=
    match callerRequest with
    | .object property =>
      subscriptionOptions.filterMap fun option =>
        ((property option.1).filter option.2).map fun value => (option.1, value)
    | _ => []
  rowFilter := rowFilter

/-- The request asked for `startTime` or `previousCount`. -/
def ScopedRequest.replaysHistory (request : ScopedRequest) : Bool :=
  request.options.any fun option =>
    decide (option.1 = "startTime") || decide (option.1 = "previousCount")

/-- What reaches the table: an unfiltered caller's target as it is, or a scoped request. -/
inductive TableRequest where
  | whole (target : Argument)
  | scoped (request : ScopedRequest)

-- connect()

/-- One event the subscription delivers to the loop, and the moments of the checks it
meets there: the stored row's, its own payload's and the replay's.
-/
structure Arrival where
  event : Option FeedEvent
  stored : CheckMoments
  payload : CheckMoments
  replay : CheckMoments

/-- What the feed runs on: the language, the tables over time and the host's subscription. -/
structure FeedHost where
  engine : Engine
  contentHash : Option Value → String
  history : TableHistory
  subscribe : TableRequest → List Arrival

/-- A call of `connect(target, incomingMessages)`. -/
structure ConnectCall where
  verdict : AgentAuthVerdict
  loadAsInstance : Bool
  target : Argument
  incomingMessages : Argument

def ConnectCall.callerRequest (call : ConnectCall) : Argument :=
  if call.loadAsInstance then call.incomingMessages else call.target

def ConnectCall.scopedRequest (call : ConnectCall) (readerId : String) : ScopedRequest :=
  scopedSubscriptionRequest call.callerRequest (scopeAllows readerId)

def scopedTurn (host : FeedHost) (readerId : String) (replaysHistory : Bool) (arrival : Arrival)
    : Option FeedEvent :=
  match arrival.event with
  | none => none
  | some event =>
    if !readableRowEvent host.engine host.history arrival.stored arrival.payload event readerId
    then none
    else if replaysHistory
        && !storedRowReadable host.engine host.history arrival.replay event.id readerId then
      none
    else some (promotionBoundEvent host.contentHash event)

/-- `connect()`: the events it yields, in order. The anonymous call throws. A generator
that returns a subscription yields none of its events.
-/
def connect (host : FeedHost) (call : ConnectCall) : Except Unit (List (Option FeedEvent)) :=
  let unfiltered : List (Option FeedEvent) :=
    match call.incomingMessages with
    | .falsy => []
    | _ =>
      (host.subscribe (.whole call.target)).map fun arrival =>
        arrival.event.map (promotionBoundEvent host.contentHash)
  match call.verdict with
  | .anonymous => .error ()
  | .internal => .ok unfiltered
  | .agent readerId isAdmin =>
    if isAdmin then .ok unfiltered
    else
      let request := call.scopedRequest readerId
      .ok ((host.subscribe (.scoped request)).filterMap fun arrival =>
        (scopedTurn host readerId request.replaysHistory arrival).map some)

end Flair.Feeds
