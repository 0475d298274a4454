import Mathlib.Data.List.Sort
import Flair.Catchup.ReadPositions
import Flair.Foundations.IsoTime

/-! The pages of the OrgEvent catch-up: the position of an event, which events a page may
list, their order and the cursor after a page. Follows `resources/org-event-catchup-lib.ts`
and the position helpers of `resources/agent-read-position-lib.ts`.
-/

namespace Flair.Catchup

open Dynamic

-- Positions of events

structure OrgEventRow where
  id : String
  createdAt : Option String
  targetIds : Option (List String)
  expiresAt : Option String
deriving DecidableEq

def positionSep : String := "\t"

def recordPosition (record : OrgEventRow) : String :=
  record.createdAt.getD "" ++ positionSep ++ record.id

def positionAfterTimestamp (iso : String) : String := iso ++ positionSep

/-- The text before the first separator, or the whole position without one; `none` when
empty.
-/
def createdAtFloorFromPosition (position : String) : Option String :=
  let ts := String.ofList (position.toList.takeWhile (· ≠ '\t'))
  if ts = "" then none else some ts

def laterTimestamp (a b : Option String) : Option String :=
  if a.getD "" = "" then (if b.getD "" = "" then none else b)
  else if b.getD "" = "" then a
  else if textLt (a.getD "") (b.getD "") then b else a

-- Eligible events

def eventTargetsParticipant (event : OrgEventRow) (participantId : String) : Bool :=
  match event.targetIds with
  | none => true
  | some targets => targets.isEmpty || decide (participantId ∈ targets)

/-- `dateOf` is `new Date(text).getTime()`, `none` for an invalid date, which is before no
other.
-/
def eventIsExpired (dateOf : String → Option Int) (event : OrgEventRow) (now : Int) : Bool :=
  match event.expiresAt with
  | none => false
  | some expiresAt =>
    decide (expiresAt ≠ "") && ((dateOf expiresAt).map fun at' => decide (at' < now)).getD false

structure CatchupCollectOpts where
  participantId : String
  after : String
  since : Option String
  now : Int

def catchupSeekTimestamp (after : String) (since : Option String) : Option String :=
  laterTimestamp (createdAtFloorFromPosition after) since

def isCatchupEligible (dateOf : String → Option Int) (event : OrgEventRow)
    (opts : CatchupCollectOpts)
    : Bool :=
  if event.createdAt.getD "" = "" then false
  else if opts.since.getD "" ≠ "" ∧ textLt (event.createdAt.getD "") (opts.since.getD "") then
    false
  else if comparePosition (recordPosition event) opts.after ≤ 0 then false
  else if !eventTargetsParticipant event opts.participantId then false
  else !eventIsExpired dateOf event opts.now

/-- `{ ...event, position }` -/
structure PositionedEvent where
  event : OrgEventRow
  position : String
deriving DecidableEq

def withEventPosition (event : OrgEventRow) : PositionedEvent where
  event
  position := recordPosition event

/-- One round of the loop of `collectCatchupEvents`. -/
def collectRow (dateOf : String → Option Int) (opts : CatchupCollectOpts)
    (results : List PositionedEvent) (event : OrgEventRow)
    : List PositionedEvent :=
  if isCatchupEligible dateOf event opts then results ++ [withEventPosition event] else results

/-- The comparator of `results.sort`. -/
def PositionedEvent.AtOrBefore (a b : PositionedEvent) : Prop :=
  comparePosition a.position b.position ≤ 0

instance (a b : PositionedEvent) : Decidable (a.AtOrBefore b) :=
  inferInstanceAs (Decidable (comparePosition a.position b.position ≤ 0))

/-- `results.sort(...)` -/
def sortCollected (results : List PositionedEvent) : List PositionedEvent :=
  results.insertionSort PositionedEvent.AtOrBefore

-- Pages

structure PositionPage where
  page : List PositionedEvent
  hasMore : Bool
  nextAfter : String
deriving DecidableEq

def pageAfter (ordered : List PositionedEvent) (after : String) (pageSize : Nat)
    : PositionPage :=
  let slice := ordered.filter (fun row => 0 < comparePosition row.position after)
  let hasMore := decide (pageSize < slice.length)
  let page := if hasMore then slice.take pageSize else slice
  { page, hasMore, nextAfter := (page.getLast?.map PositionedEvent.position).getD after }

def defaultCatchupPageSize : Nat := 50

def maxCatchupPageSize : Nat := 500

/-- `parsePageSize` of a raw limit as `Number` reads it: `none` when it is missing or empty,
`some none` when it is not finite.
-/
def parsePageSize (raw : Option (Option Rat)) : Nat :=
  match raw with
  | none => min maxCatchupPageSize (max 1 defaultCatchupPageSize)
  | some none => defaultCatchupPageSize
  | some (some n) => min maxCatchupPageSize (max 1 n.floor.toNat)

theorem parsePageSize_pos (raw : Option (Option Rat)) : 0 < parsePageSize raw := by
  unfold parsePageSize maxCatchupPageSize defaultCatchupPageSize
  split <;> omega

-- The order of positions

/-- A timestamp whose characters all come after the separator, as those of an ISO text do. -/
def ClearOfSep (text : String) : Prop := ∀ unit ∈ codeUnits text, 9 < unit

def OrgEventRow.Stamped (event : OrgEventRow) : Prop :=
  ∃ createdAt, event.createdAt = some createdAt ∧ createdAt ≠ "" ∧ ClearOfSep createdAt

theorem codeUnits_append (left right : String)
    : codeUnits (left ++ right) = codeUnits left ++ codeUnits right := by
  simp [codeUnits]

variable {event : OrgEventRow}

theorem codeUnits_recordPosition {createdAt : String} (h : event.createdAt = some createdAt)
    : codeUnits (recordPosition event) = codeUnits createdAt ++ 9 :: codeUnits event.id := by
  rw [recordPosition, h, codeUnits_append, codeUnits_append]
  simp [positionSep, codeUnits, codeUnitRank]

/-- Heads clear of the separator decide the order before anything after it, by induction on
both.
-/
theorem head_le_of_lt {left right leftRest rightRest : List Nat}
    (clearLeft : ∀ unit ∈ left, 9 < unit) (clearRight : ∀ unit ∈ right, 9 < unit)
    (h : left ++ 9 :: leftRest < right ++ 9 :: rightRest)
    : ¬ right < left := by
  induction left generalizing right with
  | nil => exact List.not_lt_nil right
  | cons unit rest ih =>
    cases right with
    | nil =>
      have first := clearLeft unit List.mem_cons_self
      simp only [List.cons_append, List.nil_append, List.cons_lt_cons_iff] at h
      omega
    | cons other others =>
      simp only [List.cons_append, List.cons_lt_cons_iff] at h ⊢
      rcases h with less | ⟨rfl, less⟩
      · omega
      have deeper := ih (fun u m => clearLeft u (List.mem_cons_of_mem _ m))
        (fun u m => clearRight u (List.mem_cons_of_mem _ m)) less
      simp only [lt_self_iff_false, true_and, false_or]
      exact deeper

theorem head_eq_of_eq {left right leftRest rightRest : List Nat}
    (clearLeft : ∀ unit ∈ left, 9 < unit) (clearRight : ∀ unit ∈ right, 9 < unit)
    (h : left ++ 9 :: leftRest = right ++ 9 :: rightRest)
    : left = right ∧ leftRest = rightRest := by
  induction left generalizing right with
  | nil =>
    cases right with
    | nil => exact ⟨rfl, by simpa using h⟩
    | cons other others =>
      have first := clearRight other List.mem_cons_self
      simp only [List.nil_append, List.cons_append, List.cons.injEq] at h
      omega
  | cons unit rest ih =>
    cases right with
    | nil =>
      have first := clearLeft unit List.mem_cons_self
      simp only [List.nil_append, List.cons_append, List.cons.injEq] at h
      omega
    | cons other others =>
      simp only [List.cons_append, List.cons.injEq] at h
      obtain ⟨rfl, tails⟩ := h
      obtain ⟨rfl, same⟩ := ih (fun u m => clearLeft u (List.mem_cons_of_mem _ m))
        (fun u m => clearRight u (List.mem_cons_of_mem _ m)) tails
      exact ⟨rfl, same⟩

theorem id_of_recordPosition {left right : OrgEventRow} (stampedLeft : left.Stamped)
    (stampedRight : right.Stamped) (h : recordPosition left = recordPosition right)
    : left.id = right.id := by
  obtain ⟨leftAt, leftEq, -, leftClear⟩ := stampedLeft
  obtain ⟨rightAt, rightEq, -, rightClear⟩ := stampedRight
  have units := congrArg codeUnits h
  rw [codeUnits_recordPosition leftEq, codeUnits_recordPosition rightEq] at units
  exact codeUnits_injective (head_eq_of_eq leftClear rightClear units).2

-- What a page lists

theorem comparePosition_pos {a b : String} : 0 < comparePosition a b ↔ textLt b a := by
  have flipped : comparePosition a b ≤ 0 ↔ ¬ textLt b a := comparePosition_le_zero
  constructor
  · intro positive
    by_contra notBefore
    exact absurd (flipped.mpr notBefore) (not_le.mpr positive)
  · intro before
    exact not_le.mp (fun small => flipped.mp small before)

instance : Std.Total PositionedEvent.AtOrBefore where
  total a b := by
    simp only [PositionedEvent.AtOrBefore, comparePosition_le_zero]
    by_cases before : textLt b.position a.position
    · exact Or.inr (textLt_asymm before)
    · exact Or.inl before

instance : IsTrans PositionedEvent PositionedEvent.AtOrBefore where
  trans a b c := by
    simp only [PositionedEvent.AtOrBefore, comparePosition_le_zero]
    intro ab bc ca
    rcases textLt_trichotomy a.position b.position with less | same | greater
    · exact bc (textLt_trans ca less)
    · exact bc (same ▸ ca)
    · exact ab greater

variable {row : PositionedEvent}

theorem mem_sortCollected {results : List PositionedEvent}
    : row ∈ sortCollected results ↔ row ∈ results :=
  (List.perm_insertionSort _ _).mem_iff

structure Collected (results : List PositionedEvent) : Prop where
  distinct : (results.map (fun row => row.event.id)).Nodup
  positioned : ∀ row ∈ results, row = withEventPosition row.event ∧ row.event.Stamped

theorem Collected.strict {results : List PositionedEvent} (h : Collected results)
    : (sortCollected results).Pairwise (fun a b => textLt a.position b.position) := by
  have sorted : (sortCollected results).Pairwise PositionedEvent.AtOrBefore :=
    List.pairwise_insertionSort PositionedEvent.AtOrBefore _
  have apart : results.Pairwise (fun a b => a.position ≠ b.position) := by
    refine (List.pairwise_map.mp h.distinct).imp_of_mem ?_
    intro a b memberA memberB different same
    obtain ⟨positionA, stampedA⟩ := h.positioned a memberA
    obtain ⟨positionB, stampedB⟩ := h.positioned b memberB
    rw [positionA, positionB] at same
    exact different (id_of_recordPosition stampedA stampedB same)
  have sortedApart : (sortCollected results).Pairwise (fun a b => a.position ≠ b.position) :=
    (List.perm_insertionSort _ _).symm.pairwise apart (fun differs => differs.symm)
  refine (sorted.and sortedApart).imp ?_
  intro a b both
  rcases textLt_trichotomy a.position b.position with before | same | after
  · exact before
  · exact absurd same both.2
  · exact absurd after (comparePosition_le_zero.mp both.1)

variable {ordered : List PositionedEvent}

theorem pageAfter_sublist (after : String) (pageSize : Nat)
    : ((pageAfter ordered after pageSize).page).Sublist ordered := by
  unfold pageAfter
  simp only
  split
  · exact (List.take_sublist _ _).trans List.filter_sublist
  · exact List.filter_sublist

variable {after : String}

theorem mem_pageAfter {pageSize : Nat}
    (strict : ordered.Pairwise (fun a b => textLt a.position b.position)) (size : 0 < pageSize)
    (member : row ∈ ordered) (past : textLt after row.position)
    (within : ¬ textLt (pageAfter ordered after pageSize).nextAfter row.position)
    : row ∈ (pageAfter ordered after pageSize).page := by
  have sliced : row ∈ ordered.filter (fun row => 0 < comparePosition row.position after) :=
    List.mem_filter.mpr ⟨member, decide_eq_true (comparePosition_pos.mpr past)⟩
  have slicedStrict : (ordered.filter (fun row => 0 < comparePosition row.position after)).Pairwise
      (fun a b => textLt a.position b.position) :=
    strict.sublist List.filter_sublist
  unfold pageAfter at within ⊢
  generalize ordered.filter (fun row => 0 < comparePosition row.position after) = slice
    at sliced slicedStrict within ⊢
  simp only at within ⊢
  split
  · rename_i more
    rw [if_pos more] at within
    rw [← List.take_append_drop pageSize slice] at sliced slicedStrict
    rcases List.mem_append.mp sliced with listed | later
    · exact listed
    have long : pageSize < slice.length := of_decide_eq_true more
    have nonempty : slice.take pageSize ≠ [] := by
      rw [← List.length_pos_iff, List.length_take]
      omega
    rw [List.getLast?_eq_some_getLast nonempty] at within
    have before := (List.pairwise_append.mp slicedStrict).2.2 _
      (List.getLast_mem nonempty) row later
    exact absurd before within
  · exact sliced

theorem page_within {pageSize : Nat}
    (strict : ordered.Pairwise (fun a b => textLt a.position b.position))
    (member : row ∈ (pageAfter ordered after pageSize).page)
    : ¬ textLt (pageAfter ordered after pageSize).nextAfter row.position := by
  have pageStrict := strict.sublist (pageAfter_sublist after pageSize)
  have next : (pageAfter ordered after pageSize).nextAfter
      = ((pageAfter ordered after pageSize).page.getLast?.map
          PositionedEvent.position).getD after := rfl
  generalize (pageAfter ordered after pageSize).page = page at member pageStrict next
  rw [next, List.getLast?_eq_some_getLast (List.ne_nil_of_mem member)]
  rcases List.mem_append.mp (List.dropLast_append_getLast (List.ne_nil_of_mem member) ▸ member)
    with earlier | last
  · rw [← List.dropLast_append_getLast (List.ne_nil_of_mem member)] at pageStrict
    exact textLt_asymm ((List.pairwise_append.mp pageStrict).2.2 row earlier _
      List.mem_cons_self)
  · have same := List.mem_singleton.mp last
    show ¬ textLt (page.getLast (List.ne_nil_of_mem member)).position row.position
    rw [← same]
    exact textLt_irrefl _

-- The seek

/-- A cursor of the form the catch-up itself makes: a timestamp, the separator, the rest. -/
def IsCursor (position : String) : Prop :=
  ∃ createdAt rest, position = createdAt ++ positionSep ++ rest ∧ createdAt ≠ ""
    ∧ ClearOfSep createdAt

theorem OrgEventRow.Stamped.isCursor (h : event.Stamped)
    : IsCursor (recordPosition event) := by
  obtain ⟨createdAt, stamp, nonempty, clear⟩ := h
  exact ⟨createdAt, event.id, by rw [recordPosition, stamp]; rfl, nonempty, clear⟩

theorem createdAtFloor_cursor {createdAt rest : String} (nonempty : createdAt ≠ "")
    (clear : ClearOfSep createdAt)
    : createdAtFloorFromPosition (createdAt ++ positionSep ++ rest) = some createdAt := by
  have kept : ∀ c ∈ createdAt.toList, decide (c ≠ '\t') = true := by
    intro c member
    apply decide_eq_true
    rintro rfl
    have unit := clear 9 (List.mem_map.mpr ⟨'\t', member, rfl⟩)
    omega
  have head : (createdAt ++ positionSep ++ rest).toList.takeWhile (fun c => decide (c ≠ '\t'))
      = createdAt.toList := by
    rw [String.toList_append, String.toList_append, List.append_assoc,
      List.takeWhile_append_of_pos kept]
    simp [positionSep]
  have ts : String.ofList ((createdAt ++ positionSep ++ rest).toList.takeWhile
      (fun c => decide (c ≠ '\t'))) = createdAt := by
    rw [head, String.ofList_toList]
  simp only [createdAtFloorFromPosition, ts, nonempty, if_false]

theorem seek_keeps {since : Option String} (cursor : IsCursor after)
    (unbounded : since.getD "" = "") (stamped : event.Stamped)
    (past : textLt after (recordPosition event))
    : ∃ seek, catchupSeekTimestamp after since = some seek
      ∧ ¬ textLt (event.createdAt.getD "") seek := by
  obtain ⟨floor, rest, rfl, nonempty, clear⟩ := cursor
  obtain ⟨createdAt, stamp, _, clearStamp⟩ := stamped
  refine ⟨floor, ?_, ?_⟩
  · simp [catchupSeekTimestamp, createdAtFloor_cursor nonempty clear, laterTimestamp, nonempty,
      unbounded]
  rw [stamp]
  unfold textLt at past
  rw [codeUnits_recordPosition stamp, codeUnits_append, codeUnits_append] at past
  apply head_le_of_lt clear clearStamp
  simpa [positionSep, codeUnits, codeUnitRank] using past

-- ISO texts

theorem clear_append {left right : String} (hl : ClearOfSep left) (hr : ClearOfSep right)
    : ClearOfSep (left ++ right) := by
  intro unit member
  rw [codeUnits_append] at member
  exact (List.mem_append.mp member).elim (hl unit) (hr unit)

variable {text : String}

theorem clear_of_chars (h : ∀ c ∈ text.toList, 9 < codeUnitRank c)
    : ClearOfSep text := by
  intro unit member
  obtain ⟨c, present, rfl⟩ := List.mem_map.mp member
  exact h c present

theorem clear_of_check (h : text.toList.all (fun c => decide (9 < codeUnitRank c)) = true)
    : ClearOfSep text :=
  clear_of_chars (fun c member => of_decide_eq_true (List.all_eq_true.mp h c member))

theorem clear_digit {c : Char} (h : c.isDigit = true) : 9 < codeUnitRank c := by
  simp only [Char.isDigit, Bool.and_eq_true, decide_eq_true_eq] at h
  have low : 48 ≤ c.toNat := h.1
  have high : c.toNat ≤ 57 := h.2
  unfold codeUnitRank
  rw [if_pos (by omega)]
  omega

theorem clear_padded (width amount : Nat) : ClearOfSep (IsoTime.padded width amount) := by
  apply clear_append
  · apply clear_of_chars
    intro c member
    rw [String.toList_ofList] at member
    obtain rfl := List.eq_of_mem_replicate member
    exact clear_digit rfl
  · apply clear_of_chars
    intro c member
    rw [show toString amount = amount.repr from rfl, Nat.repr_eq_ofList_toDigits,
      String.toList_ofList] at member
    exact clear_digit (Nat.isDigit_of_mem_toDigits (by decide) (by decide) member)

theorem clear_yearText (year : Int) : ClearOfSep (IsoTime.yearText year) := by
  unfold IsoTime.yearText
  split
  · exact clear_padded _ _
  · split
    · exact clear_append (clear_of_check rfl) (clear_padded _ _)
    · exact clear_append (clear_of_check rfl) (clear_padded _ _)

theorem clear_isoPieces (year : Int) (month day hour minute second millis : Nat)
    : ClearOfSep (IsoTime.yearText year ++ "-" ++ IsoTime.padded 2 month ++ "-"
        ++ IsoTime.padded 2 day ++ "T" ++ IsoTime.padded 2 hour ++ ":"
        ++ IsoTime.padded 2 minute ++ ":" ++ IsoTime.padded 2 second ++ "."
        ++ IsoTime.padded 3 millis ++ "Z") := by
  have dash : ClearOfSep "-" := clear_of_check rfl
  have colon : ClearOfSep ":" := clear_of_check rfl
  have t : ClearOfSep "T" := clear_of_check rfl
  have dot : ClearOfSep "." := clear_of_check rfl
  have date := clear_append (clear_append (clear_append (clear_append (clear_yearText year) dash)
    (clear_padded 2 month)) dash) (clear_padded 2 day)
  have toMinute := clear_append (clear_append (clear_append (clear_append date
    t) (clear_padded 2 hour)) colon)
    (clear_padded 2 minute)
  have toMillis := clear_append (clear_append (clear_append (clear_append toMinute colon)
    (clear_padded 2 second)) dot) (clear_padded 3 millis)
  exact clear_append toMillis (clear_of_check rfl)

theorem clear_toISOString {millis : Int} (h : IsoTime.toISOString millis = some text)
    : text ≠ "" ∧ ClearOfSep text := by
  unfold IsoTime.toISOString at h
  split at h
  · cases h
  simp only at h
  generalize IsoTime.civilFromDays (millis / IsoTime.millisPerDay) = civil at h
  obtain ⟨year, month, day⟩ := civil
  have made := Option.some.inj h
  constructor
  · rintro rfl
    have length := congrArg String.length made
    simp only [String.length_append] at length
    have final : "Z".length = 1 := rfl
    have none : "".length = 0 := rfl
    omega
  · rw [← made]
    exact clear_isoPieces year _ _ _ _ _ _

end Flair.Catchup
