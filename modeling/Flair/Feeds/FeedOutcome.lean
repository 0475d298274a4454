import Flair.Feeds.FeedSafety
import Flair.Lexical.IndexedLeg

/-! What a subscriber of the Memory feed receives: a reader only what the scope or the
stored row allows, an unfiltered subscriber the whole subscription.
-/

namespace Flair.Feeds

open Dynamic Flair.Lexical Flair.Retrieval
open Flair.Relay (AgentAuthVerdict)

def SubscribesTable (host : FeedHost) : Prop :=
  ∀ request arrival event, arrival ∈ host.subscribe request → arrival.event = some event →
    FromTable host.history event

theorem connect_reader (host : FeedHost) (call : ConnectCall) (readerId : String)
    (reader : call.verdict = .agent readerId false)
    : connect host call
      = .ok ((host.subscribe (.scoped (call.scopedRequest readerId))).filterMap fun arrival =>
          (scopedTurn host readerId (call.scopedRequest readerId).replaysHistory arrival).map
            some) := by
  simp only [connect, reader, Bool.false_eq_true, if_false]

theorem connect_unfiltered (host : FeedHost) (call : ConnectCall)
    (unfiltered : call.verdict = .internal ∨ ∃ adminId, call.verdict = .agent adminId true)
    (listening : call.incomingMessages ≠ .falsy)
    : connect host call
      = .ok ((host.subscribe (.whole call.target)).map fun arrival =>
          arrival.event.map (promotionBoundEvent host.contentHash)) := by
  unfold connect
  rcases unfiltered with internal | ⟨adminId, admin⟩
  · cases messages : call.incomingMessages with
    | falsy => exact absurd messages listening
    | plain => simp only [internal]
    | object property => simp only [internal]
  · cases messages : call.incomingMessages with
    | falsy => exact absurd messages listening
    | plain => simp only [admin, if_true]
    | object property => simp only [admin, if_true]

/-- For every history of the tables, every subscription made of versions of their rows and
every call: what a reader is yielded shows one committed version each, judged by its own
owner and visibility or by the row stored when it was checked, and by the row stored then
too where history was asked for; only allowlisted options reach the table; and an
unfiltered subscriber that passes messages receives every event in order.
-/
theorem feed_shows_judged_versions (host : FeedHost) (call : ConnectCall)
    (fromTable : SubscribesTable host)
    : (∀ readerId, call.verdict = .agent readerId false →
          ∃ delivered, connect host call = .ok delivered
            ∧ (∀ item ∈ delivered,
                ∃ arrival ∈ host.subscribe (.scoped (call.scopedRequest readerId)),
                ∃ event fields version shown,
                  item = some { event with value := .row shown }
                  ∧ Shown host readerId (call.scopedRequest readerId).replaysHistory arrival
                      event fields version shown)
            ∧ ∀ name value, (name, value) ∈ (call.scopedRequest readerId).options →
                ∃ property hasExpectedType, call.callerRequest = .object property
                  ∧ (name, hasExpectedType) ∈ subscriptionOptions
                  ∧ property name = some value ∧ hasExpectedType value = true)
      ∧ (call.verdict = .internal ∨ (∃ adminId, call.verdict = .agent adminId true) →
          call.incomingMessages ≠ .falsy →
          connect host call
            = .ok ((host.subscribe (.whole call.target)).map fun arrival =>
                arrival.event.map (promotionBoundEvent host.contentHash))) := by
  refine ⟨?_, connect_unfiltered host call⟩
  intro readerId reader
  refine ⟨_, connect_reader host call readerId reader, ?_, ?_⟩
  · intro item delivered
    obtain ⟨arrival, arrived, turn⟩ := List.mem_filterMap.mp delivered
    obtain ⟨yielded, taken, rfl⟩ := Option.map_eq_some_iff.mp turn
    obtain ⟨event, fields, version, shown, rfl, judged⟩ :=
      shown_of_scopedTurn (fun event here => fromTable _ arrival event arrived here) taken
    exact ⟨arrival, arrived, event, fields, version, shown, rfl, judged⟩
  · intro name value carried
    exact option_of_scopedRequest carried

-- A row that turns shared

def privateDraft : Record :=
  Record.ofFields [
    ("id", .str "memory"), ("agentId", .str "writer"), ("visibility", .str "private"),
    ("content", .str "draft")]

def sharedMemory : Record :=
  Record.ofFields [
    ("id", .str "memory"), ("agentId", .str "writer"), ("visibility", .str "shared"),
    ("content", .str "released")]

def releasedLater : TableHistory where
  rowAt moment id :=
    if id = .str "memory" then some (if moment = 0 then privateDraft else sharedMemory) else none
  readFails := fun _ _ => false
  headAt := fun _ _ => .ok none
  now := fun _ => 0

def partialDraft : FeedEvent where
  type := some (.str "put")
  id := some (.str "memory")
  value := .row (Record.ofFields [("content", .str "draft")])
  others := ∅

def fullRelease : FeedEvent where
  type := some (.str "put")
  id := some (.str "memory")
  value := .row sharedMemory
  others := ∅

def laterMoments : CheckMoments where
  row := 1
  clock := 1
  head := 1
  live := 1

def arrivalOf (event : FeedEvent) : Arrival where
  event := some event
  stored := laterMoments
  payload := laterMoments
  replay := laterMoments

def draftHost (events : List FeedEvent) : FeedHost where
  engine := textEngine
  contentHash := fun _ => ""
  history := releasedLater
  subscribe := fun _ => events.map arrivalOf

def readerCall : ConnectCall where
  verdict := .agent "reader" false
  loadAsInstance := true
  target := .falsy
  incomingMessages := .plain

def silentAdminCall : ConnectCall where
  verdict := .agent "admin" true
  loadAsInstance := true
  target := .falsy
  incomingMessages := .falsy

theorem connect_single {event : FeedEvent}
    (readable : readableRowEvent textEngine releasedLater laterMoments laterMoments event "reader"
      = true)
    : connect (draftHost [event]) readerCall
      = .ok [some (promotionBoundEvent (fun _ => "") event)] := by
  have turn : scopedTurn (draftHost [event]) "reader"
      (readerCall.scopedRequest "reader").replaysHistory (arrivalOf event)
      = some (promotionBoundEvent (fun _ => "") event) := by
    simp only [scopedTurn, arrivalOf, draftHost, readable]
    rfl
  rw [connect_reader _ _ "reader" rfl]
  change Except.ok ([arrivalOf event].filterMap _) = _
  simp only [List.filterMap_cons, List.filterMap_nil, turn, Option.map_some]

theorem fullRelease_shows : ShowsVersion releasedLater fullRelease sharedMemory sharedMemory where
  committed := ⟨1, .str "memory", by simp [releasedLater], fun _ => rfl⟩
  included := fun _ _ found => found

/-- Witness: a reader is yielded the released row in full. -/
theorem feed_shows_judged_versions_released
    : connect (draftHost [fullRelease]) readerCall
        = .ok [some (promotionBoundEvent (fun _ => "") fullRelease)]
      ∧ ∃ delivered, connect (draftHost [fullRelease]) readerCall = .ok delivered
          ∧ ∀ item ∈ delivered,
              ∃ event fields version shown, item = some { event with value := .row shown }
                ∧ Shown (draftHost [fullRelease]) "reader" false (arrivalOf fullRelease)
                    event fields version shown := by
  have fromTable : SubscribesTable (draftHost [fullRelease]) := by
    intro request arrival event arrived here
    obtain rfl : arrival = arrivalOf fullRelease := by simpa [draftHost] using arrived
    obtain rfl : fullRelease = event := Option.some.inj here
    exact ⟨sharedMemory, fullRelease_shows⟩
  refine ⟨connect_single (by decide), ?_⟩
  obtain ⟨delivered, yielded, shown, -⟩ :=
    (feed_shows_judged_versions (draftHost [fullRelease]) readerCall fromTable).1 "reader" rfl
  refine ⟨delivered, yielded, ?_⟩
  intro item mem
  obtain ⟨arrival, arrived, event, fields, version, value, item, judged⟩ := shown item mem
  obtain rfl : arrival = arrivalOf fullRelease := by simpa [draftHost] using arrived
  exact ⟨event, fields, version, value, item, judged⟩

/-- The content of a private version is yielded once its row is shared, and an admin that
passes no messages is yielded nothing of a subscription with an event.
-/
theorem feed_shows_private_draft
    : SubscribesTable (draftHost [partialDraft])
      ∧ (∃ item, connect (draftHost [partialDraft]) readerCall = .ok [some item]
          ∧ ∃ fields, item.value = .row fields ∧ fields.get "content" = some (.str "draft"))
      ∧ (∀ moment id row, releasedLater.rowAt moment id = some row →
          row.get "content" = some (.str "draft") → scopeAllows "reader" row = false)
      ∧ connect (draftHost [partialDraft]) silentAdminCall = .ok []
      ∧ ((draftHost [partialDraft]).subscribe (.whole silentAdminCall.target)).length = 1 := by
  refine ⟨?_, ?_, ?_, rfl, rfl⟩
  · intro request arrival event arrived here
    obtain rfl : arrival = arrivalOf partialDraft := by simpa [draftHost] using arrived
    obtain rfl : partialDraft = event := Option.some.inj here
    refine ⟨privateDraft, ⟨⟨0, .str "memory", rfl, fun _ => rfl⟩, ?_⟩⟩
    intro field value found
    have here : field = "content" := by
      by_contra apart
      simp [Record.ofFields, apart] at found
    subst here
    rw [← found]
    decide
  · exact ⟨promotionBoundEvent (fun _ => "") partialDraft,
      connect_single (by decide), _, rfl, by decide⟩
  · intro moment id row stored content
    simp only [releasedLater] at stored
    split at stored
    · split at stored
      · cases stored
        decide
      · cases stored
        exact absurd content (by decide)
    · cases stored

end Flair.Feeds
