import Flair.Federation.SkipReasons
import Flair.Foundations.JsonReader
import Flair.Foundations.Objects

/-! The rows of the sender's retry table: their keys, the checks of the sender and of the
receiver, the selection of due rows and the rows each outcome writes. Follows
`src/lib/federation-retry-row.ts`, `src/lib/federation-retry-queue.ts` and
`resources/federation-retry-lib.ts`.
-/

namespace Flair.Federation

open Dynamic

-- Keys

structure RetryEntry where
  peerId : String
  table : String
  recordId : String
deriving DecidableEq

def keyComponent (name : String) : Option Value → Except String String
  | some (.str text) =>
    if text = "" then .error s!"federation retry: {name} must be a non-empty string"
    else .ok text
  | _ => .error s!"federation retry: {name} must be a non-empty string"

def retryEntryKey (peerId table recordId : Option Value) : Except String String :=
  (keyComponent "peerId" peerId).bind fun peerId =>
    (keyComponent "table" table).bind fun table =>
      (keyComponent "recordId" recordId).map fun recordId =>
        JsonText.array [JsonText.quote peerId, JsonText.quote table, JsonText.quote recordId]

/-- `parseRetryEntryKey`: the key must be an array of three non-empty strings. -/
def parseRetryEntryKey (id : String) : Option RetryEntry :=
  (JsonText.readMark '[' id.toList).bind fun rest =>
    (JsonText.readText rest).bind fun (peerId, rest) =>
      (JsonText.readMark ',' rest).bind fun rest =>
        (JsonText.readText rest).bind fun (table, rest) =>
          (JsonText.readMark ',' rest).bind fun rest =>
            (JsonText.readText rest).bind fun (recordId, rest) =>
              (JsonText.readMark ']' rest).bind fun rest =>
                if rest.dropWhile JsonText.isBlank ≠ [] then none
                else if peerId = "" ∨ table = "" ∨ recordId = "" then none
                else some { peerId, table, recordId }

-- Outcomes and reasons

inductive RetryResolution where
  | merged
  | refusedTerminal
  | sourceDeleted
  | sourceIneligible
  | peerUnavailable
  | retryExhausted
deriving DecidableEq

def RetryResolution.text : RetryResolution → String
  | merged => "merged"
  | refusedTerminal => "refused_terminal"
  | sourceDeleted => "source_deleted"
  | sourceIneligible => "source_ineligible"
  | peerUnavailable => "peer_unavailable"
  | retryExhausted => "retry_exhausted"

/-- `RETRY_RESOLUTIONS` -/
def RetryResolution.all : List RetryResolution :=
  [merged, refusedTerminal, sourceDeleted, sourceIneligible, peerUnavailable, retryExhausted]

def isRetryResolution (value : Option Value) : Bool :=
  RetryResolution.all.any fun resolution => decide (value = some (.str resolution.text))

def retryBounds : List String := ["attempts", "age", "both"]

def isOneOf (texts : List String) (value : Option Value) : Bool :=
  (asString value).any fun text => texts.contains text

def isRetryBound (value : Option Value) : Bool := isOneOf retryBounds value

def memoryRetryReasons : List String :=
  ["future_timestamp", "unknown_originator_key", "merge_target_changed", "merge_target_busy",
    "merge_error", "presence_agent_not_replicated"]

def memoryPendingReasons : List String := memoryRetryReasons ++ ["retry_unknown"]

def localRetryReasons : List String := ["transport_failure", "invalid_response", "retry_unknown"]

-- The checks

inductive RetryRowProblem where
  | idMismatch
  | unknownState
  | unknownReason
  | outcomeMismatch
deriving DecidableEq

def pending : Value := .str "pending"

def terminal : Value := .str "terminal"

def ownKey (row : Record) : Bool :=
  match retryEntryKey (row.get "peerId") (row.get "table") (row.get "recordId") with
  | .ok id => decide (row.get "id" = some (.str id))
  | .error _ => false

def outcomeFits (row : Record) : Bool :=
  if row.get "state" = some pending then
    isNullish (row.get "resolution") && isNullish (row.get "bound")
  else
    isRetryResolution (row.get "resolution")
    && if row.get "resolution" = some (.str RetryResolution.retryExhausted.text) then
        isRetryBound (row.get "bound")
      else isNullish (row.get "bound")

/-- `retryRowProblem` of `federation-retry-row.ts`, for the reasons its caller knows. -/
def retryRowProblemShared (row : Record) (isKnownReason : Option Value → Bool)
    : Option RetryRowProblem :=
  if !ownKey row then some .idMismatch
  else if row.get "state" ≠ some pending ∧ row.get "state" ≠ some terminal then
    some .unknownState
  else if !isNullish (row.get "lastReason") && !isKnownReason (row.get "lastReason") then
    some .unknownReason
  else if !outcomeFits row then some .outcomeMismatch
  else none

/-- `retryRowProblem` of `federation-retry-lib.ts`: the receiver knows every skip reason and
the sender's own.
-/
def retryRowProblem (row : Record) : Option RetryRowProblem :=
  retryRowProblemShared row fun value =>
    (asString value).any fun text =>
      (SkipReason.ofText text).isSome || localRetryReasons.contains text

def retryRowFields : List String :=
  ["id", "peerId", "table", "recordId", "state", "firstRefusedAt", "attempts", "episodeId",
    "recordFingerprint", "lastReason", "lastAttemptSyncId", "lastAttemptAt", "completedAt",
    "resolution", "bound", "createdAt", "updatedAt"]

def retryTerminalFields : List String := ["resolution", "completedAt", "bound"]

def confirmFields : List String :=
  ["id", "peerId", "table", "recordId", "state", "attempts", "lastReason", "lastAttemptAt",
    "firstRefusedAt", "createdAt", "resolution", "completedAt", "updatedAt", "bound"]

/-- `retryRowConfirmation`: the first field that is not echoed, or that a pending row must
not hold.
-/
def retryRowConfirmation (record : Record) (stored : Option Record) : Option String :=
  match stored with
  | none => some "row"
  | some stored =>
    (confirmFields.find? fun field =>
      record.has field
      && !strictEquals (some ((stored.get field).getD .null))
        (some ((record.get field).getD .null))).or
    (if stored.get "state" = some pending then
      retryTerminalFields.find? fun field => !isNullish (stored.get field)
    else none)

structure RetryRowMalformedness where
  problem : RetryRowProblem
  field : String
deriving DecidableEq

/-- `isKnownReason` of the sender. -/
def isPendingReason (value : Option Value) : Bool := isOneOf memoryPendingReasons value

def retryRowMalformedness (row : Record) : Option RetryRowMalformedness :=
  let problem := retryRowProblemShared row isPendingReason
  let outcome : Option RetryRowMalformedness :=
    if problem = some .outcomeMismatch then
      some {
        problem := .outcomeMismatch
        field := if isRetryResolution (row.get "resolution") then "bound" else "resolution" }
    else none
  if problem = some .idMismatch then some { problem := .idMismatch, field := "id" }
  else if problem = some .unknownState then some { problem := .unknownState, field := "state" }
  else if problem = some .unknownReason then
    some { problem := .unknownReason, field := "lastReason" }
  else if row.get "state" = some pending then
    if !isPendingReason (row.get "lastReason") then
      some { problem := .unknownReason, field := "lastReason" }
    else
      match retryRowConfirmation ∅ (some row) with
      | some field => some { problem := .outcomeMismatch, field }
      | none => outcome
  else outcome

-- The rows that are due

inductive RetryOfferProblem where
  | wrongState
  | wrongTable
  | idMismatch
  | unknownReason
  | outcomeMismatch
deriving DecidableEq

def retryOfferProblem (row : Record) (table : String) : Option RetryOfferProblem :=
  if row.get "state" ≠ some pending then some .wrongState
  else if row.get "table" ≠ some (.str table) then some .wrongTable
  else if !ownKey row then some .idMismatch
  else
    match retryRowMalformedness row with
    | some { problem := .outcomeMismatch, .. } => some .outcomeMismatch
    | some { problem := .idMismatch, .. } => some .idMismatch
    | some { problem := .unknownState, .. } => some .wrongState
    | some { problem := .unknownReason, .. } => some .unknownReason
    | none => if isPendingReason (row.get "lastReason") then none else some .unknownReason

def memoryRetryBackoffMs : List Int := [0, 30000, 300000, 1800000]

def retryBackoffMs (attempts : Nat) : Int :=
  memoryRetryBackoffMs.getD (min (max attempts 1) memoryRetryBackoffMs.length - 1) 0

def priorAttempts (row : Record) : Nat := (safeCount (row.get "attempts")).getD 0

/-- The backoff of a row has elapsed. `dateParse` is the engine's `Date.parse`, where `none`
is `NaN`.
-/
def backoffElapsed (dateParse : Value → Option Int) (nowMs : Int) (row : Record) : Bool :=
  let attempts := if priorAttempts row > 0 then priorAttempts row else 1
  let last := row.get "lastAttemptAt"
  match dateParse (if isNullish last then .str "" else last.getD .null) with
  | none => true
  | some last => decide (last + retryBackoffMs attempts ≤ nowMs)

def dueRetryRows (dateParse : Value → Option Int) (rows : List Record) (nowMs : Int)
    (table : String)
    : List Record :=
  rows.filter fun row =>
    (retryOfferProblem row table).isNone && backoffElapsed dateParse nowMs row

-- The rows an outcome writes

structure RefusalRowInput where
  peerId : String
  recordId : String
  reason : String
  nowIso : String
  existing : Option Record
  attemptReserved : Bool

/-- `prior?.field ?? nowIso` -/
def keptOr (prior : Option Record) (field nowIso : String) : Value :=
  let kept := prior.bind fun prior => prior.get field
  if isNullish kept then .str nowIso else kept.getD .null

def retryRowForRefusal (input : RefusalRowInput) : Except String Record :=
  (retryEntryKey (some (.str input.peerId)) (some (.str "Memory"))
      (some (.str input.recordId))).map fun id =>
    let attempts := (input.existing.map priorAttempts).getD 0
    Record.ofFields [
      ("id", .str id),
      ("peerId", .str input.peerId),
      ("table", .str "Memory"),
      ("recordId", .str input.recordId),
      ("state", pending),
      ("firstRefusedAt", keptOr input.existing "firstRefusedAt" input.nowIso),
      ("attempts", .num ((attempts + if input.attemptReserved then 0 else 1 : Nat) : Rat)),
      ("lastReason", .str input.reason),
      ("lastAttemptAt", .str input.nowIso),
      ("createdAt", keptOr input.existing "createdAt" input.nowIso),
      ("updatedAt", .str input.nowIso),
      ("resolution", .null),
      ("completedAt", .null),
      ("bound", .null)
    ]

def retryRowForAttempt (row : Record) (nowIso : String) : Except String Record :=
  (retryEntryKey (row.get "peerId") (some (.str "Memory")) (row.get "recordId")).map fun id =>
    let out := Record.ofFields [
      ("id", .str id),
      ("peerId", (row.get "peerId").getD .null),
      ("table", .str "Memory"),
      ("recordId", (row.get "recordId").getD .null),
      ("state", pending),
      ("firstRefusedAt", keptOr (some row) "firstRefusedAt" nowIso),
      ("attempts", .num ((priorAttempts row + 1 : Nat) : Rat)),
      ("lastAttemptAt", .str nowIso),
      ("createdAt", keptOr (some row) "createdAt" nowIso),
      ("updatedAt", .str nowIso)
    ]
    let reasoned :=
      match asString (row.get "lastReason") with
      | some reason => out.set "lastReason" (.str reason)
      | none => out
    ((reasoned.set "resolution" .null).set "completedAt" .null).set "bound" .null

def terminalRetryRow (row : Record) (resolution nowIso : String) : Record :=
  let out := row.filter fun field _ => retryRowFields.contains field
  ((((out.set "state" terminal).set "resolution" (.str resolution)).set "bound" .null).set
    "completedAt" (.str nowIso)).set "updatedAt" (.str nowIso)

end Flair.Federation
