import Flair.Feeds.MemoryFeed

/-! What the Memory feed yields. Every yielded event shows fields of one committed version
of its row; a version that names its owner and its visibility in the event is one the
reader's scope allows, and any other event is yielded for the sake of its stored row.
-/

namespace Flair.Feeds

open Dynamic Flair.Lexical Flair.Retrieval
open Flair.Relay (AgentAuthVerdict)

-- Read scope

variable {readerId : String}

theorem scopeAllows_congr {left right : Record} (owner : left.get "agentId" = right.get "agentId")
    (visibility : left.get "visibility" = right.get "visibility")
    : scopeAllows readerId left = scopeAllows readerId right := by
  simp only [scopeAllows, owner, visibility]

theorem scopeAllows_of_no_visibility {row : Record} (absent : row.get "visibility" = none)
    : scopeAllows readerId row = true := by
  simp [scopeAllows, absent]

-- Events and versions

structure ShowsVersion (history : TableHistory) (event : FeedEvent) (fields version : Record)
    : Prop where
  committed : ∃ moment rowId, history.rowAt moment rowId = some version
    ∧ (isNullish event.id = false → event.id = some rowId)
  included : ∀ field value, fields.get field = some value → version.get field = some value

def FromTable (history : TableHistory) (event : FeedEvent) : Prop :=
  match event.value with
  | .row fields => ∃ version, ShowsVersion history event fields version
  | .list _ => False
  | .plain _ => True

def StoredRowAllowed (history : TableHistory) (moment : Nat) (event : FeedEvent)
    (readerId : String)
    : Prop :=
  ∃ rowId stored, event.id = some rowId ∧ history.rowAt moment rowId = some stored
    ∧ scopeAllows readerId stored = true

structure Shown (host : FeedHost) (readerId : String) (replaysHistory : Bool)
    (arrival : Arrival) (event : FeedEvent) (fields version shown : Record)
    : Prop where
  arrived : arrival.event = some event
  value : event.value = .row fields
  fromVersion : ShowsVersion host.history event fields version
  /-- A shown field is the version's, or a promotion field without its verdict. -/
  field : ∀ name value, shown.get name = some value
    → version.get name = some value ∨ (name ∈ promotionBindingFields ∧ value = .null)
  /-- An event with a string owner and the version's visibility was judged by the version. -/
  own : (asString (fields.get "agentId")).isSome → fields.get "visibility" = version.get "visibility"
    → scopeAllows readerId version = true
  /-- Any other event was judged by the row stored when it was checked. -/
  stored : decidesItself fields = false
    → StoredRowAllowed host.history arrival.stored.row event readerId
  /-- With history asked for, the row stored at the replay check is readable as well. -/
  current : replaysHistory = true
    → StoredRowAllowed host.history arrival.replay.row event readerId

theorem get_applyPromotionBinding {contentHash : Option Value → String} {record : Record}
    {name : String} {value : Value}
    (shown : (applyPromotionBinding contentHash record).get name = some value)
    : record.get name = some value ∨ (name ∈ promotionBindingFields ∧ value = .null) := by
  unfold applyPromotionBinding at shown
  split at shown
  · exact .inl shown
  split at shown
  · exact .inl shown
  by_cases bound : name ∈ promotionBindingFields
  · refine .inr ⟨bound, ?_⟩
    simp only [promotionBindingFields, List.mem_cons, List.not_mem_nil, or_false] at bound
    rcases bound with rfl | rfl | rfl | rfl <;>
      simpa [promotionBindingFields, eq_comm] using shown
  · refine .inl ?_
    simp only [promotionBindingFields, List.mem_cons, List.not_mem_nil, or_false,
      not_or] at bound
    simpa [promotionBindingFields, bound] using shown

theorem version_allowed {history : TableHistory} {event : FeedEvent} {fields version : Record}
    (shows : ShowsVersion history event fields version)
    (judged : decidesItself fields = true → scopeAllows readerId fields = true)
    (owned : (asString (fields.get "agentId")).isSome)
    (same : fields.get "visibility" = version.get "visibility")
    : scopeAllows readerId version = true := by
  cases visible : fields.get "visibility" with
  | none => exact scopeAllows_of_no_visibility (same.symm.trans visible)
  | some visibility =>
    obtain ⟨owner, named⟩ := Option.isSome_iff_exists.mp owned
    have agent := asString_eq_some.mp named
    have allowed := judged (by simp [decidesItself, named, visible])
    rw [← scopeAllows_congr (agent.trans (shows.included _ _ agent).symm) same]
    exact allowed

-- The loop

theorem admitted_of_readableRowEvent {engine : Engine} {history : TableHistory}
    {stored payload : CheckMoments} {event : FeedEvent} (fromTable : FromTable history event)
    (readable : readableRowEvent engine history stored payload event readerId = true)
    : ∃ fields version, event.value = .row fields ∧ ShowsVersion history event fields version
        ∧ (decidesItself fields = true → scopeAllows readerId fields = true)
        ∧ (decidesItself fields = false
            → StoredRowAllowed history stored.row event readerId) := by
  unfold readableRowEvent at readable
  unfold FromTable at fromTable
  split at readable
  · exact absurd readable Bool.false_ne_true
  cases shape : event.value with
  | row fields =>
    simp only [shape, Bool.and_eq_true] at readable fromTable
    obtain ⟨version, shows⟩ := fromTable
    refine ⟨fields, version, rfl, shows, ?_, ?_⟩
    · intro own
      simpa [own] using readable.1
    intro other
    have checked := readable.1
    simp only [other, Bool.false_eq_true, if_false] at checked
    exact allowed_of_storedRowReadable checked
  | list items => simp [shape] at fromTable
  | plain value => simp [shape] at readable

theorem shown_of_scopedTurn {host : FeedHost} {replaysHistory : Bool} {arrival : Arrival}
    {yielded : FeedEvent}
    (fromTable : ∀ event, arrival.event = some event → FromTable host.history event)
    (turn : scopedTurn host readerId replaysHistory arrival = some yielded)
    : ∃ event fields version shown, yielded = { event with value := .row shown }
        ∧ Shown host readerId replaysHistory arrival event fields version shown := by
  unfold scopedTurn at turn
  split at turn
  · cases turn
  rename_i event arrived
  split at turn
  · cases turn
  rename_i readable
  split at turn
  · cases turn
  rename_i replayed
  obtain ⟨fields, version, value, shows, own, stored⟩ :=
    admitted_of_readableRowEvent (fromTable event arrived) (by simpa using readable)
  have bound : yielded
      = { event with value := .row (applyPromotionBinding host.contentHash fields) } := by
    rw [← Option.some.inj turn]
    simp [promotionBoundEvent, value]
  refine ⟨event, fields, version, _, bound, ?_⟩
  exact {
    arrived := arrived
    value := value
    fromVersion := shows
    field := fun name shownValue shown =>
      (get_applyPromotionBinding shown).imp_left (shows.included name shownValue)
    own := version_allowed shows own
    stored := stored
    current := by
      intro asked
      simp only [asked, Bool.true_and, Bool.not_eq_true', Bool.not_eq_false] at replayed
      exact allowed_of_storedRowReadable replayed }

-- Requests

theorem option_of_scopedRequest {callerRequest : Argument} {rowFilter : Record → Bool}
    {name : String} {value : Supplied}
    (carried : (name, value) ∈ (scopedSubscriptionRequest callerRequest rowFilter).options)
    : ∃ property hasExpectedType, callerRequest = .object property
        ∧ (name, hasExpectedType) ∈ subscriptionOptions
        ∧ property name = some value ∧ hasExpectedType value = true := by
  unfold scopedSubscriptionRequest at carried
  cases callerRequest with
  | falsy => simp at carried
  | plain => simp at carried
  | object property =>
    simp only [List.mem_filterMap, Option.map_eq_some_iff, Prod.mk.injEq] at carried
    obtain ⟨option, listed, given, found, rfl, rfl⟩ := carried
    obtain ⟨read, typed⟩ := Option.filter_eq_some_iff.mp found
    exact ⟨property, option.2, rfl, listed, read, typed⟩

end Flair.Feeds
