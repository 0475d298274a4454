import Mathlib.Logic.Function.Basic
import Flair.Foundations.Systems

/-! The continuity state files under any number of hook processes: one transition for each
file step of `bumpSeq`, `bumpSeqBounded` and `seedSession`. A rename is atomic and gives the
path a new inode; a seeding truncates and then writes the inode it opened. Follows
`packages/flair-mcp/src/continuity.ts`.
-/

namespace Flair.Continuity

open Transition

-- Names and files

/-- `[A-Za-z0-9._-]` -/
def isFileIdChar (c : Char) : Bool :=
  c.isAlphanum || c == '.' || c == '_' || c == '-'

/-- `/^[A-Za-z0-9._-]{1,128}$/` -/
def isSafeFileId (value : String) : Bool :=
  decide (1 ≤ value.toList.length) && decide (value.toList.length ≤ 128)
    && value.toList.all isFileIdChar

structure Pair where
  agentId : String
  harnessSessionId : String
deriving DecidableEq

def statePath (pair : Pair) : String :=
  pair.agentId ++ "." ++ pair.harnessSessionId ++ ".state.json"

structure SessionState where
  sessionId : String
  processUUID : String
  seq : Nat
  agentId : String
  harnessSessionId : String
  updatedAt : String
deriving DecidableEq

def SessionState.pair (state : SessionState) : Pair := ⟨state.agentId, state.harnessSessionId⟩

inductive FileContent where
  | absent
  | torn
  | holds (state : SessionState)
deriving DecidableEq

structure StateFile where
  inode : Nat
  content : FileContent

/-- What `bumpSeqBounded` answers; `bumpSeq` answers null for all but the first. -/
inductive SeqBump where
  | bumped (state : SessionState)
  | absent
  | unreadable (detail : String)
  | unwritable
deriving DecidableEq

-- Processes

/-- A bump between two of its file steps. Its staged state lies in a temporary file whose
name has the process id and a random part, so no other call writes it.
-/
inductive CallStage where
  | idle
  | started (pair : Pair)
  | read (pair : Pair) (current : SessionState)
  | staged (pair : Pair) (current next : SessionState)
  | answered (pair : Pair) (answer : SeqBump)

/-- A seeding between two of its file steps, with the inode it opened. -/
inductive SeedStage where
  | idle
  | started (pair : Pair) (state : SessionState)
  | opened (pair : Pair) (inode : Nat) (state : SessionState)
  | ended (pair : Pair)

def CallStage.pair? : CallStage → Option Pair
  | .idle => none
  | .started pair | .read pair _ | .staged pair _ _ | .answered pair _ => some pair

def SeedStage.pair? : SeedStage → Option Pair
  | .idle => none
  | .started pair _ | .opened pair _ _ | .ended pair => some pair

inductive SeqEvent where
  | seeded (pair : Pair)
  | returned (pair : Pair) (seq : Nat)
deriving DecidableEq

/-- The session directory, the processes, and the events so far, the last one first. -/
structure SessionDir where
  files : String → StateFile
  call : Nat → CallStage
  seed : Nat → SeedStage
  log : List SeqEvent

/-- Any file step may fail; a write that fails leaves the truncated file. -/
inductive FileLabel where
  | begin (call : Nat) (pair : Pair)
  | read (call : Nat) (readable : Bool)
  | stage (call : Nat) (updatedAt : String) (written : Bool)
  | rename (call : Nat) (renamed : Bool)
  | beginSeed (seed : Nat) (pair : Pair) (sessionId processUUID updatedAt : String)
  | open (seed : Nat) (opened : Bool)
  | write (seed : Nat) (written : Bool)

namespace SessionDir

def gotoCall (dir : SessionDir) (call : Nat) (stage : CallStage) : SessionDir :=
  { dir with call := Function.update dir.call call stage }

def gotoSeed (dir : SessionDir) (seed : Nat) (stage : SeedStage) : SessionDir :=
  { dir with seed := Function.update dir.seed seed stage }

def put (dir : SessionDir) (path : String) (file : StateFile) : SessionDir :=
  { dir with files := Function.update dir.files path file }

def record (dir : SessionDir) (event : SeqEvent) : SessionDir :=
  { dir with log := event :: dir.log }

def content (dir : SessionDir) (path : String) : FileContent := (dir.files path).content

end SessionDir

def afterRead (pair : Pair) (readable : Bool) : FileContent → CallStage
  | .absent => .answered pair .absent
  | .torn => .answered pair (.unreadable (if readable then "malformed JSON" else "unreadable"))
  | .holds current =>
    if readable then .read pair current else .answered pair (.unreadable "unreadable")

def callStep (dir : SessionDir) : FileLabel → Option SessionDir
  | .begin call pair =>
    match dir.call call with
    | .idle =>
      if isSafeFileId pair.agentId && isSafeFileId pair.harnessSessionId then
        some (dir.gotoCall call (.started pair))
      else none
    | _ => none
  | .read call readable =>
    match dir.call call with
    | .started pair =>
      some (dir.gotoCall call (afterRead pair readable (dir.content (statePath pair))))
    | _ => none
  | .stage call updatedAt written =>
    match dir.call call with
    | .read pair current =>
      if written then
        some (dir.gotoCall call
          (.staged pair current { current with seq := current.seq + 1, updatedAt }))
      else some (dir.gotoCall call (.answered pair .unwritable))
    | _ => none
  | .rename call renamed =>
    match dir.call call with
    | .staged pair _ next =>
      if renamed then
        some (((dir.put (statePath pair)
            { inode := (dir.files (statePath pair)).inode + 1, content := .holds next }).record
          (.returned pair next.seq)).gotoCall call (.answered pair (.bumped next)))
      else some (dir.gotoCall call (.answered pair .unwritable))
    | _ => none
  | _ => none

def seedStep (dir : SessionDir) : FileLabel → Option SessionDir
  | .beginSeed seed pair sessionId processUUID updatedAt =>
    match dir.seed seed with
    | .idle =>
      if isSafeFileId pair.agentId && isSafeFileId pair.harnessSessionId then
        some (dir.gotoSeed seed (.started pair {
          sessionId
          processUUID
          seq := 0
          agentId := pair.agentId
          harnessSessionId := pair.harnessSessionId
          updatedAt }))
      else none
    | _ => none
  | .open seed opened =>
    match dir.seed seed with
    | .started pair state =>
      if opened then
        let inode := (dir.files (statePath pair)).inode
        some (((dir.put (statePath pair) { inode, content := .torn }).record
          (.seeded pair)).gotoSeed seed (.opened pair inode state))
      else some (dir.gotoSeed seed (.ended pair))
    | _ => none
  | .write seed written =>
    match dir.seed seed with
    | .opened pair inode state =>
      -- a write to an inode that a rename has replaced does not show at the path
      if written && decide ((dir.files (statePath pair)).inode = inode) then
        some ((dir.put (statePath pair) { inode, content := .holds state }).gotoSeed seed
          (.ended pair))
      else some (dir.gotoSeed seed (.ended pair))
    | _ => none
  | _ => none

/-- A session directory without state files, before any process has begun. -/
def continuity : System SessionDir FileLabel where
  initial dir :=
    (∀ path, dir.content path = .absent) ∧ (∀ call, dir.call call = .idle)
      ∧ (∀ seed, dir.seed seed = .idle) ∧ dir.log = []
  step dir label := (callStep dir label).or (seedStep dir label)

-- What a run has returned

def returned (pair : Pair) : List SeqEvent → List Nat
  | [] => []
  | .seeded _ :: rest => returned pair rest
  | .returned other seq :: rest =>
    if other = pair then seq :: returned pair rest else returned pair rest

def returnedSince (pair : Pair) : List SeqEvent → List Nat
  | [] => []
  | .seeded other :: rest => if other = pair then [] else returnedSince pair rest
  | .returned other seq :: rest =>
    if other = pair then seq :: returnedSince pair rest else returnedSince pair rest

def Used (dir : SessionDir) (pair : Pair) : Prop :=
  (∃ call, (dir.call call).pair? = some pair) ∨ ∃ seed, (dir.seed seed).pair? = some pair

def OwnName (dir : SessionDir) (pair : Pair) : Prop :=
  ∀ other, Used dir other → statePath other = statePath pair → other = pair

/-- The condition on a step: a process begins for a pair whose file name is its own, and a
bump renames over the very state it has read.
-/
def Serial : Guard SessionDir FileLabel
  | dir, .begin _ pair | dir, .beginSeed _ pair _ _ _ => OwnName dir pair
  | dir, .rename call true =>
    ∀ pair current next, dir.call call = .staged pair current next
      → dir.content (statePath pair) = .holds current
  | _, _ => True

def SeedsFirst : Guard SessionDir FileLabel
  | dir, .open seed _ =>
    ∀ pair state, dir.seed seed = .started pair state → returned pair dir.log = []
  | _, _ => True

end Flair.Continuity
