import Mathlib.Data.List.Dedup
import Flair.Foundations.Text
import Flair.Foundations.Values

/-! The live replay of a snapshot: the reads, the refusals before any write, the delete and put
loops and the verification. Follows `src/rem/restore.ts`; the archive's extraction, the
pre-restore snapshot and the target's answers are inputs.
-/

namespace Flair.RemRestore

open Dynamic

-- Requests and answers

inductive Table where
  | memory
  | soul
  | candidate
deriving DecidableEq

def Table.path : Table → String
  | .memory => "Memory"
  | .soul => "Soul"
  | .candidate => "MemoryCandidate"

def Table.word : Table → String
  | .memory => "memory"
  | .soul => "soul"
  | .candidate => "candidate"

inductive Verb where
  | delete
  | put
deriving DecidableEq

def Verb.word : Verb → String
  | .delete => "delete"
  | .put => "put"

/-- A delete or a put of one record. `row` is the row it is sent for: the listed row of a
delete, the body of a put.
-/
structure Write where
  verb : Verb
  table : Table
  id : String
  row : Value
deriving DecidableEq

/-- A request to the target. A `Memory` or `Soul` listing names the agent in its query. -/
inductive Request where
  | list (table : Table) (agentId : String)
  | listCandidates (agentId : String) (after : Option String)
  | write (write : Write)
deriving DecidableEq

/-- How a request ends. `code` is the `error` field of a refusal's body; `unknown` is
`ApiRequestOutcomeUnknown`.
-/
inductive Answer where
  | ok (body : Option Value)
  | refused (status : Nat) (code : Option String) (message : String)
  | failed (message : String)
  | unknown (message : String)
deriving DecidableEq

abbrev Exchange := Request × Answer

abbrev Api := List Exchange → Request → Answer

def Answer.succeeded : Answer → Bool
  | .ok _ => true
  | _ => false

def Answer.isUnknown : Answer → Bool
  | .unknown _ => true
  | _ => false

/-- The error's `message`, when the request failed. -/
def Answer.error : Answer → Option String
  | .ok _ => none
  | .refused _ _ message | .failed message | .unknown message => some message

def Answer.isProviderTimeoutRefusal : Answer → Bool
  | .refused status code _ => status == 503 && code == some "memory_provider_timeout"
  | _ => false

-- Rows

mutual
/-- `String(value)`; `none` is the `TypeError` of an object whose own `toString` is data.
`numberText` is the text of a number.
-/
def stringOf (numberText : Rat → String) : Value → Option String
  | .null => some "null"
  | .bool flag => some (if flag then "true" else "false")
  | .num amount => some (numberText amount)
  | .str text => some text
  | .arr items => (itemTexts numberText items).map (String.intercalate ",")
  | .obj fields => if (fields.lookup "toString").isSome then none else some "[object Object]"

/-- The texts `Array.prototype.join` joins. -/
def itemTexts (numberText : Rat → String) : List Value → Option (List String)
  | [] => some []
  | .null :: rest => (itemTexts numberText rest).map ("" :: ·)
  | item :: rest => do
      let text ← stringOf numberText item
      let texts ← itemTexts numberText rest
      return text :: texts
end

/-- `row?.id` when it is truthy. -/
def usableId (row : Value) : Option Value :=
  (row.member "id").filter fun id => truthy (some id)

/-- The reason `encodeRecordId` refuses an id for. -/
def encodeRecordIdRefusal (id : String) : Option String :=
  if id = "." ∨ id = ".." then
    some ("record id \"" ++ id ++ "\" is a URL path dot-segment (\".\" or \"..\"); "
      ++ "it cannot be addressed as one path segment. Use a different id.")
  else none

/-- The array of a listing: the body itself, its `results` or its `items`. -/
def listingItems : Option Value → Option (List Value)
  | some (.arr items) => some items
  | some (.obj fields) =>
    match fields.lookup "results", fields.lookup "items" with
    | some (.arr items), _ => some items
    | _, some (.arr items) => some items
    | _, _ => none
  | _ => none

def asArray (raw : Option Value) : List Value := (listingItems raw).getD []

def suppliesSoulScopeFields (content : Value) : Bool :=
  (!isNullish (content.member "scopeTag")
      && content.member "scopeTag" != some (.str ""))
    || match content.member "tags" with
      | some (.arr tags) => !tags.isEmpty
      | _ => false

-- The report

inductive Status where
  | completed
  | dryRun
  | unresolved
  | failed
deriving DecidableEq

/-- `unknownStates` lists, for each unknown id, whether the verification read shows it. -/
structure Verified where
  expectedIds : Table → List String
  actualIds : Table → List String
  missingIds : Table → List String
  extraIds : Table → List String
  unknownStates : List (Table × String × Bool)

structure Report where
  status : Status := .completed
  preRestoreSnapshotPath : Option String := none
  deleted : Table → Nat := fun _ => 0
  restored : Table → Nat := fun _ => 0
  retried : Table → List String := fun _ => []
  unknown : Table → List String := fun _ => []
  skippedAfterUnknownDelete : Table → List String := fun _ => []
  verified : Option Verified := none
  errors : List String := []

inductive Fate where
  | done
  | failed (message : String)
  | unknown
  | notAttempted
deriving DecidableEq

/-- A run so far. `unknownWrites` holds the ids whose write outcome is unknown, `rejected` is
set by an error no `try` of the function catches. `fates` is what became of each planned
write, for what is said about it; nothing reads it.
-/
structure Run where
  sent : List Exchange := []
  report : Report := {}
  unknownWrites : Table → List String := fun _ => []
  rejected : Bool := false
  fates : List (Write × Fate) := []

namespace Run

def send (api : Api) (run : Run) (request : Request) : Answer × Run :=
  let answer := api run.sent request
  (answer, { run with sent := run.sent ++ [(request, answer)] })

def addError (run : Run) (message : String) : Run :=
  { run with report := { run.report with errors := run.report.errors ++ [message] } }

/-- `errors.push(message); result.status = "failed"` -/
def fail (run : Run) (message : String) : Run :=
  let noted := run.addError message
  { noted with report := { noted.report with status := .failed } }

/-- `result.preRestoreSnapshotPath = path` -/
def notePreRestore (run : Run) (path : String) : Run :=
  { run with report := { run.report with preRestoreSnapshotPath := some path } }

def note (run : Run) (write : Write) (fate : Fate) : Run :=
  { run with fates := run.fates ++ [(write, fate)] }

def countDone (run : Run) (write : Write) : Run :=
  let bump (count : Table → Nat) := Function.update count write.table (count write.table + 1)
  match write.verb with
  | .delete => { run with report := { run.report with deleted := bump run.report.deleted } }
  | .put => { run with report := { run.report with restored := bump run.report.restored } }

def addUnknown (run : Run) (write : Write) : Run :=
  let add (ids : Table → List String) :=
    Function.update ids write.table (ids write.table ++ [write.id])
  { run with
    report := { run.report with unknown := add run.report.unknown }
    unknownWrites := add run.unknownWrites }

def addSkipped (run : Run) (write : Write) : Run :=
  let ids := run.report.skippedAfterUnknownDelete
  { run with report := { run.report with
      skippedAfterUnknownDelete :=
        Function.update ids write.table (ids write.table ++ [write.id]) } }

def addRetried (run : Run) (write : Write) : Run :=
  let ids := run.report.retried
  { run with report := { run.report with
      retried := Function.update ids write.table (ids write.table ++ [write.id]) } }

def settle (run : Run) (write : Write) : Answer → Run
  | .ok _ => (run.countDone write).note write .done
  | .unknown _ => (run.addUnknown write).note write .unknown
  | .refused _ _ message | .failed message =>
    (run.addError (write.verb.word ++ "-" ++ write.table.word ++ " " ++ write.id ++ ": "
      ++ message)).note write (.failed message)

def attempt (api : Api) (run : Run) (write : Write) : Answer × Run :=
  let (answer, after) := run.send api (.write write)
  if write.verb = .put ∧ write.table = .memory ∧ answer.isProviderTimeoutRefusal = true then
    (after.addRetried write).send api (.write write)
  else (answer, after)

def perform (api : Api) (run : Run) (write : Write) : Run :=
  if write.id ∈ run.unknownWrites write.table then
    match write.verb with
    | .delete => run.note write .notAttempted
    | .put => (run.addSkipped write).note write .notAttempted
  else
    match encodeRecordIdRefusal write.id with
    | some message => run.settle write (.failed message)
    | none =>
      let (answer, after) := run.attempt api write
      after.settle write answer

def writeRow (api : Api) (numberText : Rat → String) (verb : Verb) (table : Table) (run : Run)
    (row : Value)
    : Run :=
  if run.rejected then run
  else
    match usableId row with
    | none => run
    | some raw =>
      match stringOf numberText raw with
      | none => { run with rejected := true }
      | some id => run.perform api { verb, table, id, row }

def writeRows (api : Api) (numberText : Rat → String) (verb : Verb) (table : Table)
    (rows : List Value) (run : Run)
    : Run :=
  rows.foldl (writeRow api numberText verb table) run

end Run

-- The candidate listing

def candidateListLimit : Nat := 500

def candidateListMaxPages : Nat := 2000

/-- The ids of a page's `candidates`, or the first entry without one. -/
def candidateIds : Nat → List Value → Except String (List String)
  | _, [] => .ok []
  | index, entry :: rest =>
    match entry, entry.member "id" with
    | .obj _, some (.str id) =>
      if id = "" then
        .error ("candidates[" ++ toString index ++ "].id is not a non-empty string")
      else (candidateIds (index + 1) rest).map (id :: ·)
    | .obj _, _ => .error ("candidates[" ++ toString index ++ "].id is not a non-empty string")
    | _, _ => .error ("candidates[" ++ toString index ++ "] is not an object")

/-- `candidateListDefect`, or the page's ids and its `hasMore`. -/
def readCandidatePage : Option Value → Except String (List String × Bool)
  | some (.obj fields) =>
    match fields.lookup "candidates" with
    | some (.arr entries) => do
        let ids ← candidateIds 0 entries
        match fields.lookup "hasMore" with
        | some (.bool hasMore) => .ok (ids, hasMore)
        | _ => .error "hasMore is missing or not a boolean"
    | _ => .error "candidates is not an array"
  | _ => .error "the body is not an object"

def incompleteListing (agentId state : String) (remedy : String := "") : String :=
  "the target's MemoryCandidate listing for agent " ++ agentId
    ++ " could not be read completely: " ++ state ++ ". No target rows were deleted or written."
    ++ (if remedy = "" then "" else " " ++ remedy)

def candidateRoute404Guidance (status : Nat) : String :=
  "restore lists leftover MemoryCandidate rows through GET /AdminMemoryCandidates on the restore "
    ++ "target, and the target answered HTTP " ++ toString status ++ ". That route is part of "
    ++ "Flair server 0.63.0; if the target runs an older server, upgrade it to 0.63.0 or newer, "
    ++ "then retry. No target rows were deleted or written."

def candidatePageRefusal (agentId : String) (status : Nat) (code : Option String)
    (message : String)
    : String :=
  if status = 404 then candidateRoute404Guidance status
  else if code = some "candidate_id_unusable" then
    incompleteListing agentId
      "GET /AdminMemoryCandidates answered candidate_id_unusable (a row has no usable id)"
      ("Remove or repair that agent's MemoryCandidate row without a usable id on the target, "
        ++ "then retry.")
  else incompleteListing agentId ("GET /AdminMemoryCandidates failed: " ++ message)

def firstRepeated : List String → List String → Option String
  | _, [] => none
  | seen, id :: rest => if id ∈ seen then some id else firstRepeated (id :: seen) rest

/-- The pages of the candidate listing from one on: `left` more may be asked for. -/
def candidatePages (api : Api) (agentId : String)
    : Nat → List String → Option String → Run → Except String (List String) × Run
  | 0, _, _, run =>
    (.error (incompleteListing agentId
      ("GET /AdminMemoryCandidates still answered hasMore: true after "
        ++ toString candidateListMaxPages ++ " pages of " ++ toString candidateListLimit
        ++ ", the most restore requests (candidate_listing_page_limit)")), run)
  | left + 1, listed, after, run =>
    let (answer, next) := run.send api (.listCandidates agentId after)
    match answer with
    | .refused status code message =>
      (.error (candidatePageRefusal agentId status code message), next)
    | .failed message | .unknown message =>
      (.error (incompleteListing agentId
        ("GET /AdminMemoryCandidates failed: " ++ message)), next)
    | .ok body =>
      match readCandidatePage body with
      | .error defect =>
        (.error (incompleteListing agentId
          ("GET /AdminMemoryCandidates returned an unexpected response shape: "
            ++ defect)), next)
      | .ok (ids, hasMore) =>
        match firstRepeated listed ids with
        | some id =>
          (.error (incompleteListing agentId
            ("GET /AdminMemoryCandidates listed candidate id " ++ id
              ++ " twice (candidate_id_repeated)")), next)
        | none =>
          if hasMore = false then (.ok (listed ++ ids), next)
          else
            match ids.getLast? with
            | none =>
              (.error (incompleteListing agentId
                ("page " ++ toString (candidateListMaxPages - left)
                  ++ " of GET /AdminMemoryCandidates answered hasMore: true with no "
                  ++ "candidates, so the cursor cannot move past "
                  ++ after.getD "the start"
                  ++ " (candidate_cursor_not_advancing)")), next)
            | some last => candidatePages api agentId left (listed ++ ids) (some last) next

def listAgentCandidates (api : Api) (agentId : String) (run : Run)
    : Except String (List String) × Run :=
  candidatePages api agentId candidateListMaxPages [] none run

def candidateRow (id : String) : Value := .obj [("id", .str id)]

-- The replay

structure RestoreOpts where
  agentId : String
  snapshotPath : String
  dryRun : Bool := false
  listCandidates : Option Bool := none
  verifyPostRestore : Option Bool := none

structure Extracted where
  memories : List Value
  soul : Value
  metadata : Value

/-- What a run meets outside the target: the archive, the extraction's result, the pre-restore
snapshot of the two live listings and the text of a number.
-/
structure Surroundings where
  snapshotExists : Bool
  extracted : Except String Extracted
  createSnapshot : List Value → List Value → Except String String
  numberText : Rat → String

/-- The snapshot's souls: an array, one object or nothing. -/
def Extracted.souls (extracted : Extracted) : List Value :=
  match extracted.soul with
  | .arr souls => souls
  | .obj fields => [.obj fields]
  | _ => []

/-- One table's listing: the items, or the error its `try` catches. -/
def listRows (api : Api) (agentId : String) (table : Table) (run : Run)
    : Except String (Option Value) × Run :=
  let (answer, next) := run.send api (.list table agentId)
  match answer with
  | .ok body => (.ok body, next)
  | .refused _ _ message | .failed message | .unknown message => (.error message, next)

def requireLiveListing (raw : Option Value) (table : Table) (agentId : String)
    : Except String (List Value) :=
  match listingItems raw with
  | some items => .ok items
  | none =>
    .error ("live-listing-unreadable: GET /" ++ table.path ++ "?agentId=" ++ agentId
      ++ " returned a response that is not a list (expected a JSON array, or an object with a "
      ++ "\"results\" or \"items\" array); refusing to restore until the live listing can be "
      ++ "read — check the API response and that the agent id is correct.")

def listLive (api : Api) (agentId : String) (table : Table) (run : Run)
    : Except String (List Value) × Run :=
  let (raw, next) := listRows api agentId table run
  (raw.bind fun body => requireLiveListing body table agentId, next)

def refusedSoulReplayIds (numberText : Rat → String) (rows : List Value)
    : Option (List String) :=
  (rows.filterMap fun row => (usableId row).filter fun _ => suppliesSoulScopeFields row).mapM
    (stringOf numberText)

def soulScopeError (inSnapshot inLive : Bool) (id : String) : String :=
  let source :=
    if inSnapshot && inLive then "in the snapshot row and the live row"
    else if inSnapshot then "in the snapshot row" else "in the live row"
  let snapshotRemedy :=
    "Restore from a different snapshot, or edit that row in the snapshot file, then re-run."
  let liveRemedy :=
    if inSnapshot then "Clear tags/scopeTag on the live row (PATCH) or delete it, then re-run."
    else "Clear tags/scopeTag on that row (PATCH) or delete it, then re-run."
  let remedies := (if inSnapshot then [snapshotRemedy] else []) ++ if inLive then [liveRemedy] else []
  "soul-scope-preflight: Soul " ++ id ++ " supplies a non-empty scopeTag or tags array " ++ source
    ++ ", which the Soul scope-field rule refuses; no target rows were deleted or written. "
    ++ String.intercalate " " remedies

structure Plan where
  memories : List Value
  souls : List Value
  currentMem : List Value
  currentSouls : List Value
  currentCandidates : List Value

/-- The refusals before the first request; `none` is an error no `try` catches. -/
def readArchive (opts : RestoreOpts) (around : Surroundings)
    : Option (Except String Extracted) :=
  if opts.dryRun = false ∧ opts.listCandidates = some false then
    some (.error ("listCandidates: false is accepted only with dryRun: a live restore lists "
      ++ "leftover MemoryCandidate rows before any delete. No request was sent to the target."))
  else if around.snapshotExists = false then
    some (.error ("snapshot does not exist: " ++ opts.snapshotPath))
  else
    match around.extracted with
    | .error message => some (.error ("extract: " ++ message))
    | .ok extracted =>
      if extracted.metadata = .null then none
      else if truthy (extracted.metadata.member "agentId") = false then
        some (.error ("snapshot is missing metadata.agentId — refusing to restore "
          ++ "(pre-v0.9.0 or untrusted snapshot)"))
      else if extracted.metadata.member "agentId" ≠ some (.str opts.agentId) then
        ((extracted.metadata.member "agentId").bind (stringOf around.numberText)).map
          fun agentId => .error ("snapshot agentId (" ++ agentId ++ ") does not match target ("
            ++ opts.agentId ++ ") — refusing to restore cross-agent")
      else some (.ok extracted)

def dryRun (api : Api) (opts : RestoreOpts) (extracted : Extracted) (run : Run) : Run :=
  let (memories, run) := listRows api opts.agentId .memory run
  match memories with
  | .error message => run.fail ("fetch-current: " ++ message)
  | .ok memories =>
    let (souls, run) := listRows api opts.agentId .soul run
    match souls with
    | .error message => run.fail ("fetch-current: " ++ message)
    | .ok souls =>
      let (candidates, run) :=
        if opts.listCandidates = some false then (.ok [], run)
        else listAgentCandidates api opts.agentId run
      match candidates with
      | .error message => run.fail ("fetch-current: " ++ message)
      | .ok candidates =>
        let deleted : Table → Nat
          | .memory => (asArray memories).length
          | .soul => (asArray souls).length
          | .candidate => candidates.length
        let restored : Table → Nat
          | .memory => extracted.memories.length
          | .soul => extracted.souls.length
          | .candidate => 0
        { run with report := { run.report with status := .dryRun, deleted, restored } }

/-- The live listings, the pre-restore snapshot, the scope-field preflight and the candidate
listing: what a live run works from, or the run that stopped there.
-/
def prepare (api : Api) (opts : RestoreOpts) (around : Surroundings) (extracted : Extracted)
    (run : Run)
    : Option Plan × Run :=
  let (memories, run) := listLive api opts.agentId .memory run
  match memories with
  | .error message => (none, run.fail ("pre-restore-snapshot: " ++ message))
  | .ok currentMem =>
    let (souls, run) := listLive api opts.agentId .soul run
    match souls with
    | .error message => (none, run.fail ("pre-restore-snapshot: " ++ message))
    | .ok currentSouls =>
      match around.createSnapshot currentMem currentSouls with
      | .error message => (none, run.fail ("pre-restore-snapshot: " ++ message))
      | .ok path =>
        let run := run.notePreRestore path
        match refusedSoulReplayIds around.numberText extracted.souls,
          refusedSoulReplayIds around.numberText currentSouls with
        | some inSnapshot, some inLive =>
          if inSnapshot ++ inLive ≠ [] then
            (none, (inSnapshot ++ inLive).reverse.dedup.reverse.foldl
              (fun run id => run.fail (soulScopeError (inSnapshot.contains id)
                (inLive.contains id) id)) run)
          else
            let (candidates, run) := listAgentCandidates api opts.agentId run
            match candidates with
            | .error message => (none, run.fail ("fetch-candidates: " ++ message))
            | .ok candidates =>
              (some {
                memories := extracted.memories
                souls := extracted.souls
                currentMem, currentSouls
                currentCandidates := candidates.map candidateRow }, run)
        | _, _ => (none, { run with rejected := true })

def replay (api : Api) (numberText : Rat → String) (plan : Plan) (run : Run) : Run :=
  let run := run.writeRows api numberText .delete .memory plan.currentMem
  let run := run.writeRows api numberText .delete .soul plan.currentSouls
  let run := run.writeRows api numberText .delete .candidate plan.currentCandidates
  let run := run.writeRows api numberText .put .soul plan.souls
  run.writeRows api numberText .put .memory plan.memories

-- Verification

def rowIds (numberText : Rat → String) (rows : List Value) : Option (List String) :=
  (rows.filterMap usableId).mapM (stringOf numberText)

/-- `new Set(ids)`, in insertion order. -/
def distinct (ids : List String) : List String := ids.reverse.dedup.reverse

def verifyError (ids : List String) (what : String) : Option String :=
  if ids = [] then none
  else some ("post-restore-verify: " ++ toString ids.length ++ " " ++ what ++ " (e.g. "
    ++ String.intercalate ", " (ids.take 3) ++ ")")

def compareIds (unknown : Table → List String) (expectedIds actualIds : Table → List String)
    : Verified where
  expectedIds
  actualIds
  missingIds table :=
    (distinct (expectedIds table)).filter fun id =>
      !(actualIds table).contains id && !(unknown table).contains id
  extraIds table :=
    (distinct (actualIds table)).filter fun id => !(expectedIds table).contains id
  unknownStates :=
    [Table.memory, .soul].flatMap fun table =>
      (unknown table).map fun id => (table, id, (actualIds table).contains id)

def verifyErrors (verified : Verified) : List String :=
  [verifyError (verified.missingIds .memory) "memory rows missing",
    verifyError (verified.missingIds .soul) "soul rows missing",
    verifyError (verified.extraIds .memory) "unexpected memory rows present",
    verifyError (verified.extraIds .soul) "unexpected soul rows present"].reduceOption

def idsByTable (memories souls : List String) : Table → List String
  | .memory => memories
  | .soul => souls
  | .candidate => []

def notConvertible : String := "Cannot convert object to primitive value"

def verify (api : Api) (agentId : String) (numberText : Rat → String) (plan : Plan) (run : Run)
    : Run :=
  let (memories, run) := listRows api agentId .memory run
  match memories with
  | .error message => run.addError ("post-restore-verify: " ++ message)
  | .ok memories =>
    let (souls, run) := listRows api agentId .soul run
    match souls with
    | .error message => run.addError ("post-restore-verify: " ++ message)
    | .ok souls =>
      match rowIds numberText plan.memories, rowIds numberText plan.souls,
        rowIds numberText (asArray memories), rowIds numberText (asArray souls) with
      | some expectedMem, some expectedSouls, some actualMem, some actualSouls =>
        let verified := compareIds run.report.unknown
          (idsByTable expectedMem expectedSouls) (idsByTable actualMem actualSouls)
        { run with report := { run.report with
            verified := some verified
            errors := run.report.errors ++ verifyErrors verified } }
      | _, _, _, _ => run.addError ("post-restore-verify: " ++ notConvertible)

def conclude (run : Run) : Run :=
  let status :=
    if run.report.unknown .memory ≠ [] ∨ run.report.unknown .soul ≠ []
        ∨ run.report.unknown .candidate ≠ [] then .unresolved
    else if run.report.errors ≠ [] then .failed
    else run.report.status
  { run with report := { run.report with status } }

/-- `applySnapshot`. A run that is `rejected` returns no report. -/
def applySnapshot (api : Api) (opts : RestoreOpts) (around : Surroundings) : Run :=
  match readArchive opts around with
  | none => { rejected := true }
  | some (.error message) => Run.fail {} message
  | some (.ok extracted) =>
    if opts.dryRun then dryRun api opts extracted {}
    else
      match prepare api opts around extracted {} with
      | (none, run) => run
      | (some plan, run) =>
        let run := replay api around.numberText plan run
        if run.rejected then run
        else if opts.verifyPostRestore = some false then conclude run
        else conclude (verify api opts.agentId around.numberText plan run)

end Flair.RemRestore
