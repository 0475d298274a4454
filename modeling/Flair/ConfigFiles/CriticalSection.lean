import Flair.ConfigFiles.Observations
import Flair.Foundations.ExclusiveEntry
import Flair.Foundations.Systems

/-! The critical section of a config write as a transition system: any number of calls on one
file, one transition for each file step, each of which may fail, and a crash of any call
between two of them. Follows `withConfigCriticalSection`, `acquireLock`, `releaseLock` and
`atomicReplace` of `src/lib/config-critical-section.ts`. Permission bits, ownership and the
backup and side files are left out.
-/

namespace Flair.ConfigFiles

open ExclusiveEntry Transition

-- Calls

inductive ConfigDecision where
  | write (bytes : Bytes)
  | hold (reason : String)
  | noop (reason : String)
deriving DecidableEq

inductive ConfigSectionStatus where
  | written
  | noop
  | held
  | refused
deriving DecidableEq

structure ConfigSectionResult where
  status : ConfigSectionStatus
  path : String
  attempts : Nat
  message : String
  changed : Option ConfigObservationField
  backupPath : Option String
  committed : Bool
  cleanupWarning : Option String
deriving DecidableEq

/-- How one call is made: its name for the file, its bounds, and whether it stages side files. -/
structure CallOptions where
  name : ConfigName
  maxAttempts : Nat
  lockAttempts : Nat
  stages : Bool

/-- `Math.max(1, opts.maxAttempts ?? 3)` -/
def CallOptions.attempts (options : CallOptions) : Nat := max 1 options.maxAttempts

/-- A decision to write: the bytes it saw inside the lock, and the bytes to be written. -/
structure Writing where
  seen : Option Bytes
  bytes : Bytes
  backupPath : Option String
deriving DecidableEq

/-- How the body of an attempt is left: with a result, with an error, or for a fresh attempt. -/
inductive Exit where
  | returned (result : ConfigSectionResult)
  | threw (message : String)
  | again
deriving DecidableEq

/-- The next step of a call. The staging file is given by its inode and the bytes written to it
so far.
-/
inductive Stage where
  | observing
  | locking (pre : ConfigObservation) (tried : Nat)
  | reobserving (pre : ConfigObservation)
  | reading (obs : ConfigObservation)
  | backingUp (bytes : Option Bytes)
  | deciding (bytes : Option Bytes) (backupPath : Option String)
  | staging (writing : Writing)
  | creating (writing : Writing)
  | filling (writing : Writing) (ino : Nat) (filled : Bytes)
  | renaming (writing : Writing) (ino : Nat) (filled : Bytes)
  | publishing (writing : Writing)
  | releasing (exit : Exit)
  | exited (exit : Exit)
  | crashed
deriving DecidableEq

/-- A call underway. `decided` is what its last `decide` saw and answered, `leaked` that an
unlink of its lock entry failed.
-/
structure Call where
  attempt : Nat
  stage : Stage
  decided : Option (Option Bytes × ConfigDecision)
  leaked : Bool
deriving DecidableEq

def Call.fresh : Call where
  attempt := 1
  stage := .observing
  decided := none
  leaked := false

-- Results

structure LockHolder where
  pid : String
  timestamp : String
  host : String

def lockRefusalLine (lockPath : String) : Option LockHolder → String
  | some holder =>
    "lock exists at " ++ lockPath ++ "; recorded holder pid " ++ holder.pid ++ " since "
      ++ holder.timestamp ++ " on host " ++ holder.host ++ ". Quiesce Flair writers and check "
      ++ "the recorded holder ON THAT HOST before removing the file."
  | none =>
    "lock exists at " ++ lockPath ++ " and its contents are not a readable holder record (blank "
      ++ "or partially written); refusing to write. Quiesce Flair writers and check the recorded "
      ++ "holder ON THAT HOST before removing the file."

def Call.unwritten (call : Call) (status : ConfigSectionStatus) (path message : String)
    (changed : Option ConfigObservationField) (backupPath : Option String)
    : ConfigSectionResult where
  status
  path
  attempts := call.attempt
  message
  changed
  backupPath
  committed := false
  cleanupWarning := none

def Call.leave (call : Call) (exit : Exit) : Call := { call with stage := .releasing exit }

variable (file : SharedFile) (options : CallOptions)

def Call.refuse (call : Call) (status : ConfigSectionStatus) (message : String)
    (backupPath : Option String)
    : Call :=
  call.leave (.returned (call.unwritten status file.targetPath message none backupPath))

/-- `atomicReplace` answers that the target was not replaced. -/
def Call.notReplaced (call : Call) (writing : Writing) (reason : String) : Call :=
  call.refuse file .refused
    ((if options.stages then "target was not replaced; staged files may remain"
      else "target was not replaced") ++ ": " ++ reason)
    writing.backupPath

-- Steps

/-- What the rename meets: the hook before it, the caller's check, or the rename itself fails. -/
inductive RenameOutcome where
  | hookThrew (message : String)
  | checkFailed (message : String)
  | failed (message : String)
  | landed
deriving DecidableEq

/-- What the file system, the hooks and `decide` answer to one step of a call. -/
inductive Event where
  | observe (failure : Option String)
  | hookThrows (message : String)
  | tryLock (failed : Bool)
  | giveUp (holder : Option LockHolder)
  | read (failure : Option String)
  | backup (outcome : Except String (Option String))
  | decide (outcome : Except String ConfigDecision)
  | stage (failure : Option String)
  | create (failure : Option String) (ino : Nat)
  | fill (count : Except String Nat)
  | finish (failure : Option String)
  | rename (outcome : RenameOutcome)
  | publish (warning : Option String)
  | release (unlinked : Bool)

def Call.observe (call : Call) (target : Target) (failure : Option String) : Call :=
  match observeConfig file options.name target failure with
  | .error reason =>
    { call with
      stage := .exited (.returned
        (call.unwritten .held options.name.configPath reason none none)) }
  | .ok pre => { call with stage := .locking pre 0 }

def Call.reobserve (call : Call) (target : Target) (pre : ConfigObservation)
    (failure : Option String)
    : Call :=
  match observeConfig file options.name target failure with
  | .error reason => call.refuse file .held ("held: " ++ reason ++ " — nothing written.") none
  | .ok obs =>
    match compareObservation pre obs with
    | some changed =>
      if changed = .targetIdentity ∧ obs.entry.type = pre.entry.type
          ∧ obs.target.type = .regular ∧ call.attempt < options.attempts then
        call.leave .again
      else
        call.leave (.returned
          (call.unwritten .held file.targetPath (heldLine changed) (some changed) none))
    | none =>
      if obs.target.type = .other then
        call.refuse file .refused
          ("the destination " ++ file.targetPath
            ++ " is not a regular file; refusing to write it.") none
      else { call with stage := .reading obs }

def Call.read (call : Call) (target : Target) (obs : ConfigObservation)
    (failure : Option String)
    : Call :=
  if obs.target.type = .regular then
    match failure, target.bytes with
    | none, some bytes => { call with stage := .backingUp (some bytes) }
    | _, _ =>
      call.refuse file .held
        ("held: could not read " ++ obs.target.path ++ ": " ++ failure.getD "ENOENT"
          ++ " — nothing written.") none
  else { call with stage := .backingUp target.bytes }

def Call.backup (call : Call) (bytes : Option Bytes) (outcome : Except String (Option String))
    : Call :=
  match bytes, outcome with
  | none, _ => { call with stage := .deciding none none }
  | some _, .ok backupPath => { call with stage := .deciding bytes backupPath }
  | some _, .error message =>
    call.refuse file .refused
      ("backup failed before deciding: " ++ message ++ " — nothing written.") none

def Call.decide (call : Call) (bytes : Option Bytes) (backupPath : Option String)
    : Except String ConfigDecision → Call
  | .error message => call.leave (.threw message)
  | .ok decision =>
    let call := { call with decided := some (bytes, decision) }
    match decision with
    | .hold reason => call.refuse file .held reason backupPath
    | .noop reason => call.refuse file .noop reason backupPath
    | .write replacement =>
      { call with stage := .staging ⟨bytes, replacement, backupPath⟩ }

def Call.stageSides (call : Call) (writing : Writing) : Option String → Call
  | none => { call with stage := .creating writing }
  | some message =>
    call.refuse file .refused
      ("target was not replaced; staged files may remain: staging failed: " ++ message)
      writing.backupPath

def Call.create (call : Call) (writing : Writing) (failure : Option String) (ino : Nat) : Call :=
  match failure with
  | some message =>
    call.notReplaced file options writing ("staging the replacement failed: " ++ message)
  | none => { call with stage := .filling writing ino [] }

/-- One round of `writeAllSync`, which writes as many bytes as it may. -/
def Call.fill (call : Call) (writing : Writing) (ino : Nat) (filled : Bytes)
    : Except String Nat → Call
  | .error message =>
    call.notReplaced file options writing ("staging the replacement failed: " ++ message)
  | .ok count =>
    { call with
      stage := .filling writing ino
        (filled ++ (writing.bytes.drop filled.length).take count) }

def Call.finish (call : Call) (writing : Writing) (ino : Nat) (filled : Bytes)
    : Option String → Call
  | some reason => call.notReplaced file options writing reason
  | none => { call with stage := .renaming writing ino filled }

def Call.afterRename (call : Call) (writing : Writing) : RenameOutcome → Call
  | .hookThrew message => call.leave (.threw message)
  | .checkFailed message =>
    call.notReplaced file options writing ("pre-rename check failed: " ++ message)
  | .failed message =>
    call.notReplaced file options writing
      ("could not rename the staging file into place: " ++ message)
  | .landed => { call with stage := .publishing writing }

def Call.publish (call : Call) (writing : Writing) (warning : Option String) : Call :=
  call.leave (.returned {
    status := .written
    path := file.targetPath
    attempts := call.attempt
    message := ""
    changed := none
    backupPath := writing.backupPath
    committed := true
    cleanupWarning := warning })

def Call.advance (call : Call) (target : Target) (event : Event) : Option Call :=
  match call.stage, event with
  | .observing, .observe failure => some (call.observe file options target failure)
  | .locking _ 0, .hookThrows message => some { call with stage := .exited (.threw message) }
  | .reobserving pre, .observe failure =>
    some (call.reobserve file options target pre failure)
  | .reading obs, .read failure => some (call.read file target obs failure)
  | .backingUp bytes, .backup outcome => some (call.backup file bytes outcome)
  | .deciding _ _, .hookThrows message => some (call.leave (.threw message))
  | .deciding bytes backupPath, .decide outcome => some (call.decide file bytes backupPath outcome)
  | .staging writing, .stage failure => some (call.stageSides file writing failure)
  | .creating writing, .create failure ino => some (call.create file options writing failure ino)
  | .filling writing ino filled, .fill count =>
    some (call.fill file options writing ino filled count)
  | .filling writing ino filled, .finish failure =>
    if filled.length < writing.bytes.length then none
    else some (call.finish file options writing ino filled failure)
  | .publishing writing, .publish warning => some (call.publish file writing warning)
  | _, _ => none

/-- The shared world: what stands at the target, whose entry stands at the lock, and the
replacements of the target so far.
-/
structure World where
  target : Target
  lock : Option Nat
  history : List (Replacement Nat (Option Bytes))

/-- `openSync(lockPath, "wx")` up to so many times. -/
def tryLock (world : World) (id : Nat) (call : Call) (pre : ConfigObservation) (tried : Nat)
    (failed : Bool)
    : Option (World × Call) :=
  if tried < options.lockAttempts then
    if failed then
      some (world, { call with
        stage := .exited (.returned (call.unwritten .refused file.targetPath
          (lockRefusalLine file.lockPath none) none none)) })
    else
      match world.lock with
      | none => some ({ world with lock := some id }, { call with stage := .reobserving pre })
      | some _ => some (world, { call with stage := .locking pre (tried + 1) })
  else none

def giveUp (world : World) (call : Call) (tried : Nat) (holder : Option LockHolder)
    : Option (World × Call) :=
  if tried < options.lockAttempts then none
  else
    some (world, { call with
      stage := .exited (.returned (call.unwritten .refused file.targetPath
        (lockRefusalLine file.lockPath holder) none none)) })

def rename (world : World) (id : Nat) (call : Call) (writing : Writing) (ino : Nat)
    (filled : Bytes) (outcome : RenameOutcome)
    : World × Call :=
  (if outcome = .landed then
    { world with
      target := .regular ino filled
      history := world.history ++ [⟨id, world.target.bytes, some filled⟩] }
  else world,
    call.afterRename file options writing outcome)

/-- `releaseLock`, which unlinks whatever stands at the lock path, and what follows it. -/
def release (world : World) (call : Call) (exit : Exit) (unlinked : Bool) : World × Call :=
  let call := { call with leaked := call.leaked || !unlinked }
  ({ world with lock := if unlinked then none else world.lock },
    match exit with
    | .again => { call with attempt := call.attempt + 1, stage := .observing }
    | .returned _ | .threw _ => { call with stage := .exited exit })

def perform (world : World) (id : Nat) (call : Call) (event : Event) : Option (World × Call) :=
  match call.stage, event with
  | .locking pre tried, .tryLock failed => tryLock file options world id call pre tried failed
  | .locking _ tried, .giveUp holder => giveUp file options world call tried holder
  | .renaming writing ino filled, .rename outcome =>
    some (rename file options world id call writing ino filled outcome)
  | .releasing exit, .release unlinked => some (release world call exit unlinked)
  | _, event => (call.advance file options world.target event).map fun next => (world, next)

-- The system

structure State where
  world : World
  calls : Nat → Call

inductive Label where
  | act (id : Nat) (event : Event)
  /-- The process of a call dies. -/
  | crash (id : Nat)
  /-- An operator removes the lock of a holder that is no longer live. -/
  | clear

def Stage.over : Stage → Bool
  | .exited _ | .crashed => true
  | _ => false

def step (file : SharedFile) (options : Nat → CallOptions) (state : State) : Label → Option State
  | .act id event =>
    (perform file (options id) state.world id (state.calls id) event).map fun (world, call) =>
      { world, calls := Function.update state.calls id call }
  | .crash id =>
    if (state.calls id).stage.over then none
    else
      some { state with
        calls := Function.update state.calls id { state.calls id with stage := .crashed } }
  | .clear =>
    match state.world.lock with
    | some holder =>
      if (state.calls holder).stage.over then
        some { state with world := { state.world with lock := none } }
      else none
    | none => none

def sections (file : SharedFile) (options : Nat → CallOptions) : System State Label where
  initial state :=
    (∀ id, state.calls id = .fresh ∨ (state.calls id).stage = .crashed)
    ∧ (∀ id, state.world.lock = some id → (state.calls id).stage = .crashed)
    ∧ state.world.history = []
  step := step file options

end Flair.ConfigFiles
