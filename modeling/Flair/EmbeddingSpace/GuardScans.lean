import Flair.EmbeddingSpace.Stamps
import Flair.Foundations.Systems

/-! The embedding-space guard of one process: any number of overlapping scans, started by a
consult or by the boot pre-warm, and the write stamps noted while they run, one transition
for each awaited step. Follows `resources/embedding-space-guard.ts`.
-/

namespace Flair.EmbeddingSpace

open Dynamic Transition

-- The state of the module

def scanErrorTableUnavailable : String := "the Memory table was not available"

def scanErrorScanFailed : String := "the Memory corpus scan failed"

def recheckMs : Int := 30000

/-- Where a scan is between two of its awaited steps. A scan knows the write epoch at its
start; one that reads holds the rows it has read.
-/
inductive ScanStage where
  | idle
  | opening (startEpoch : Nat)
  | reading (startEpoch : Nat) (rows : List StampedRow)
  | settled
deriving DecidableEq

inductive ScanOutcome where
  | verdict (rows : List StampedRow)
  | failed (reason : String)
deriving DecidableEq

/-- What happens to the guard. A note says what it was passed, `none` for a replaced row the
caller did not read, and whether the guard answered uniform then.
-/
inductive GuardEvent where
  | started (scan : Nat)
  | published (scan : Nat) (outcome : ScanOutcome)
  | noted (stamp : Option String) (previous : Option (Option StampedRow)) (uniform : Bool)
  | notedUnreadable
deriving DecidableEq

/-- The module's variables under the source's names, its scans under their sequence numbers,
and the events so far, the latest first.
-/
structure GuardState where
  uniform : Option Bool
  activeStamps : List String
  excluded : Option Nat
  excludedStale : Bool
  lastScanAt : Int
  scanning : Option Nat
  writeEpoch : Nat
  lastScanError : Option String
  scanSeq : Nat
  publishedScanSeq : Nat
  scan : Nat → ScanStage
  log : List GuardEvent

def GuardState.goto (state : GuardState) (scan : Nat) (stage : ScanStage) : GuardState :=
  { state with scan := Function.update state.scan scan stage }

def GuardState.record (state : GuardState) (event : GuardEvent) : GuardState :=
  { state with log := event :: state.log }

-- Verdicts

/-- `EmbeddingSpaceGuardState` -/
inductive GuardVerdictState where
  | uniform
  | mixed
  | unverified
  | scanFailed
  | excluded
deriving DecidableEq

structure EmbeddingSpaceVerdict where
  uniform : Bool
  state : GuardVerdictState
  reason : Option String
  current : String
  found : List String
  excluded : Option Nat
deriving DecidableEq

def guardSnapshot (currentModelId : String) (state : GuardState) : EmbeddingSpaceVerdict :=
  let verdict (uniform : Bool) (name : GuardVerdictState) (reason : Option String)
      : EmbeddingSpaceVerdict :=
    { uniform, state := name, reason
      current := (normalizeStamp (some currentModelId)).getD currentModelId
      found := state.activeStamps
      excluded := state.excluded }
  if state.uniform = some false then verdict false .mixed state.lastScanError
  else if state.lastScanError ≠ none then verdict false .scanFailed state.lastScanError
  else if state.excludedStale then verdict false .unverified none
  else if state.uniform = some true then
    if 0 < state.excluded.getD 0 then verdict false .excluded none
    else verdict true .uniform none
  else verdict false .unverified none

/-- The decision `recomputeLatch` returns once its scan has settled. -/
def latchDecision (state : GuardState) : Bool :=
  state.uniform = some true && state.lastScanError = none && !state.excludedStale
    && (state.excluded = none || state.excluded = some 0)

-- Scans

/-- The start of `scan`: the epoch is read and the next sequence number taken. -/
def startScan (state : GuardState) : GuardState :=
  let scan := state.scanSeq + 1
  ({ state with scanSeq := scan }.goto scan (.opening state.writeEpoch)).record (.started scan)

def runScan (state : GuardState) : GuardState :=
  match state.scanning with
  | some _ => state
  | none => { startScan state with scanning := some (state.scanSeq + 1) }

/-- `consultGuard`: the state it leaves and the verdict it returns. -/
def consultGuard (currentModelId : String) (state : GuardState) (now : Int)
    : GuardState × EmbeddingSpaceVerdict :=
  if (guardSnapshot currentModelId state).uniform then
    (state, guardSnapshot currentModelId state)
  else
    let next :=
      if state.uniform = none ∨ state.excludedStale ∨ recheckMs ≤ now - state.lastScanAt then
        runScan state
      else state
    (next, guardSnapshot currentModelId next)

def publishVerdict (currentModelId : String) (state : GuardState) (scan startEpoch : Nat)
    (rows : List StampedRow) (now : Int)
    : GuardState :=
  let tally := tallyRows currentModelId rows
  let ended := state.goto scan .settled
  if state.writeEpoch ≠ startEpoch then { ended with lastScanAt := 0 }
  else if scan < state.publishedScanSeq then ended
  else
    { ended with
      activeStamps := tally.seen
      uniform := some tally.uniform
      excluded := some tally.excluded
      excludedStale := false
      publishedScanSeq := scan
      lastScanAt := now
      lastScanError := none }.record (.published scan (.verdict rows))

/-- The `catch` of a scan. -/
def publishFailure (state : GuardState) (scan startEpoch : Nat) (reason : String)
    : GuardState :=
  let ended := state.goto scan .settled
  if state.writeEpoch ≠ startEpoch then { ended with lastScanAt := 0 }
  else if scan < state.publishedScanSeq then ended
  else
    { ended with
      lastScanError := some reason
      publishedScanSeq := scan }.record (.published scan (.failed reason))

/-- What opening the table does: it may be there or not, and the model id may not be
readable, which rejects the scan before its `try`.
-/
inductive OpenResult where
  | opened
  | modelUnreadable
  | tableUnavailable
deriving DecidableEq

def openStep (state : GuardState) (scan : Nat) (result : OpenResult) : Option GuardState :=
  match state.scan scan with
  | .opening startEpoch =>
    match result with
    | .opened => some (state.goto scan (.reading startEpoch []))
    | .modelUnreadable => some (state.goto scan .settled)
    | .tableUnavailable =>
      some (publishFailure state scan startEpoch scanErrorTableUnavailable)
  | _ => none

-- Noted writes

def replacesUntrusted (currentModelId : String) : Option (Option StampedRow) → Bool
  | some (some row) => row.untrustedVector currentModelId
  | _ => false

/-- The note that returns early: the count and the verdict stay. -/
def keepsCount (currentModelId : String) (stamp : Option String)
    (previous : Option (Option StampedRow)) (uniform : Bool)
    : Bool :=
  isTrustedRawStamp stamp currentModelId && !replacesUntrusted currentModelId previous
    && (previous.isSome || uniform)

/-- `if (!_activeStamps.includes(n) && _activeStamps.length < MAX_DIAG_STAMPS) push(n)` -/
def pushActive (active : List String) (n : String) : List String :=
  if n ∉ active ∧ active.length < maxDiagStamps then active ++ [n] else active

def noteWriteStamp (currentModelId : String) (state : GuardState) (stamp : Option String)
    (previous : Option (Option StampedRow))
    : GuardState :=
  let uniform := (guardSnapshot currentModelId state).uniform
  let noted := state.record (.noted stamp previous uniform)
  if keepsCount currentModelId stamp previous uniform then noted
  else
    let stale := { noted with excludedStale := true, writeEpoch := state.writeEpoch + 1 }
    match normalizeStamp stamp with
    | some n =>
      if some n ≠ normalizeStamp (some currentModelId) then
        { stale with
          activeStamps := pushActive state.activeStamps n
          uniform := some false }
      else stale
    | none => stale

/-- The `catch` of `noteWriteStamp`: the stamp could not be read. -/
def noteUnreadableStamp (state : GuardState) : GuardState :=
  { state with
    uniform := some false
    excludedStale := true
    writeEpoch := state.writeEpoch + 1 }.record .notedUnreadable

-- The system

inductive GuardLabel where
  | consult (now : Int)
  | recompute
  | opens (scan : Nat) (result : OpenResult)
  | reads (scan : Nat) (row : StampedRow)
  | finishes (scan : Nat) (now : Int)
  | fails (scan : Nat)
  | clears
  | note (stamp : Option String) (previous : Option (Option StampedRow))
  | noteUnreadable

/-- The `finally` of `runScan`: the latch of a settled scan is taken off. -/
def clearScanning (state : GuardState) : Option GuardState :=
  match state.scanning with
  | some scan =>
    if state.scan scan = .settled then some { state with scanning := none } else none
  | none => none

def guardStep (currentModelId : String) (state : GuardState) : GuardLabel → Option GuardState
  | .consult now => some (consultGuard currentModelId state now).1
  | .recompute => some (startScan { state with lastScanAt := 0 })
  | .opens scan result => openStep state scan result
  | .reads scan row =>
    match state.scan scan with
    | .reading startEpoch rows => some (state.goto scan (.reading startEpoch (rows ++ [row])))
    | _ => none
  | .finishes scan now =>
    match state.scan scan with
    | .reading startEpoch rows =>
      some (publishVerdict currentModelId state scan startEpoch rows now)
    | _ => none
  | .fails scan =>
    match state.scan scan with
    | .reading startEpoch _ => some (publishFailure state scan startEpoch scanErrorScanFailed)
    | _ => none
  | .clears => clearScanning state
  | .note stamp previous => some (noteWriteStamp currentModelId state stamp previous)
  | .noteUnreadable => some (noteUnreadableStamp state)

def loadedGuard : GuardState where
  uniform := none
  activeStamps := []
  excluded := none
  excludedStale := false
  lastScanAt := 0
  scanning := none
  writeEpoch := 0
  lastScanError := none
  scanSeq := 0
  publishedScanSeq := 0
  scan _ := .idle
  log := []

def embeddingSpaceGuard (currentModelId : String) : System GuardState GuardLabel where
  initial state := state = loadedGuard
  step := guardStep currentModelId

end Flair.EmbeddingSpace
