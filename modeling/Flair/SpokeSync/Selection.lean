import Flair.Foundations.Objects

/-! Which Memory rows a spoke's sync run selects: the rows stamped after the stored cursor,
less the private ones. Follows `runFederationSyncOnce` in `src/commands/federation.ts`.
-/

namespace Flair.SpokeSync

open Dynamic

/-- `isFederationPrivateVisibility` of the row. -/
def isFederationPrivate (row : Record) : Bool :=
  decide (row.get "visibility" = some (.str "private"))

/-- `new Date(0).toISOString()`: where a peer without a cursor starts. -/
def epochIso : String := "1970-01-01T00:00:00.000Z"

/-- `row[field] > since`; what is no text compares false. -/
def stampedAfter (since : String) (field : String) (row : Record) : Bool :=
  match asString (row.get field) with
  | some stamp => decide (textLt since stamp)
  | none => false

/-- A row without `updatedAt`, as a legacy direct insert leaves it. -/
def unstamped (row : Record) : Bool := isNullish (row.get "updatedAt")

/-- The rows of the query `updatedAt` greater than the cursor. -/
def updatedSince (since : String) (rows : List Record) : List Record :=
  rows.filter (stampedAfter since "updatedAt")

/-- The rows of the query `updatedAt` equals null. -/
def withoutStamp (rows : List Record) : List Record := rows.filter unstamped

/-- `sinceCursor`, then `federable`: a row whose `updatedAt` is null counts from its
`createdAt`, and private rows are held back.
-/
def federable (since : String) (batch : List Record) : List Record :=
  batch.filter fun row =>
    (decide (row.get "updatedAt" ≠ some .null) || stampedAfter since "createdAt" row)
    && !isFederationPrivate row

/-- The time the cursor compares: `updatedAt`, or `createdAt` without one. -/
def cursorStamp (row : Record) : Option String :=
  if unstamped row then asString (row.get "createdAt") else asString (row.get "updatedAt")

variable {since stamp : String} {row : Record}

theorem stampedAfter_iff {field : String} (h : asString (row.get field) = some stamp)
    : stampedAfter since field row = true ↔ textLt since stamp := by
  simp [stampedAfter, h]

theorem mem_updatedSince {rows : List Record} (member : row ∈ rows)
    (stamped : unstamped row = false) (own : cursorStamp row = some stamp)
    (later : textLt since stamp) (shared : isFederationPrivate row = false)
    : row ∈ federable since (updatedSince since rows) := by
  have updated : asString (row.get "updatedAt") = some stamp := by
    simpa [cursorStamp, stamped] using own
  have notNull : row.get "updatedAt" ≠ some .null := by
    rw [asString_eq_some.mp updated]
    simp
  simp [federable, updatedSince, member, stampedAfter_iff updated, later, notNull, shared]

theorem mem_withoutStamp {rows : List Record} (member : row ∈ rows) (missing : unstamped row = true)
    (own : cursorStamp row = some stamp) (later : textLt since stamp)
    (shared : isFederationPrivate row = false)
    : row ∈ federable since (withoutStamp rows) := by
  have created : asString (row.get "createdAt") = some stamp := by
    simpa [cursorStamp, missing] using own
  simp [federable, withoutStamp, member, missing, stampedAfter_iff created, later, shared]

end Flair.SpokeSync
