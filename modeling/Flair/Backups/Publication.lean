import Flair.Backups.DigestSidecar
import Flair.Foundations.Systems

/-! Publishing an archive and its digest sidecar by two renames, with a failure or a crash at
any step, and what the reader accepts afterwards. Follows `src/lib/backup-artifact.ts`; the
hash and the admission of an archive's content are parameters. Each rename and the removal are
followed by a best-effort sync of the directory, which does not fail: a power loss that undoes
the last of them is a crash before it.
-/

namespace Flair.Backups

open Dynamic Transition

-- The published names

/-- What a path holds. A dangling link exists, though reading it answers `ENOENT`. -/
inductive Entry where
  | absent
  | file (bytes : Bytes)
  | dangling
  | unreadable (code : String)
deriving DecidableEq

/-- The archive at the output path and the sidecar beside it. -/
structure Published where
  archive : Entry
  digest : Entry
deriving DecidableEq

def Entry.read : Entry → Except String Bytes
  | .file bytes => .ok bytes
  | .absent | .dangling => .error "ENOENT"
  | .unreadable code => .error code

structure BackupPublishOptions where
  outputPath : String
  serialized : String

/-- `basename(path)` -/
def basename (path : String) : String :=
  ((splitAtChar '/' path).filter (· ≠ "")).getLast?.getD ""

def backupDigestPath (archivePath : String) : String := archivePath ++ ".sha256"

-- Publication

structure Staging where
  archive : Option Bytes := none
  digest : Option Bytes := none
deriving DecidableEq

structure BackupPublishResult where
  sha256 : String
  digestPath : String
  stagingLeft : Option String
deriving DecidableEq

/-- The step a publication is at; `cleaning` holds the digest it published or why it failed. -/
inductive PublishStage where
  | stageArchive
  | syncArchive
  | verifyArchive
  | stageDigest (sha256 : String)
  | removeOldDigest (sha256 : String)
  | publishArchive (sha256 : String)
  | publishDigest (sha256 : String)
  | cleaning (outcome : Except String String)
  | returned (result : BackupPublishResult)
  | threw (message : String)
  | crashed

structure PublishState where
  files : Published
  staging : Option Staging
  removedOldDigest : Bool
  publishedArchive : Bool
  stage : PublishStage

/-- One step of a publication. Staging the archive leaves the bytes `written`, `refusal` is what
the caller's check throws, and `left` is what a failed or interrupted step leaves staged.
-/
inductive PublishLabel where
  | stageArchive (written : Bytes)
  | syncArchive
  | verifyArchive (refusal : Option String)
  | stageDigest
  | removeOldDigest
  | publishArchive
  | publishDigest
  | fail (cause : String) (left : Option Staging)
  | removeStaging (reason : Option String)
  | crash (left : Option Staging)

variable (hash : Bytes → String) (options : BackupPublishOptions)

def publishedState (state : PublishState) : String :=
  let digestPath := backupDigestPath options.outputPath
  if state.publishedArchive then
    options.outputPath ++ " holds the new archive but its digest sidecar " ++ digestPath
      ++ " was not written, and restore refuses the archive without it unless this host holds a "
      ++ "valid approval for these exact bytes; run the backup again"
  else if state.removedOldDigest then
    "the previous digest sidecar " ++ digestPath ++ " was removed and " ++ options.outputPath
      ++ " was not replaced, so a previous archive there no longer has a sidecar"
  else "nothing was published"

/-- The publication is between its first step and its last rename. -/
def PublishStage.publishing : PublishStage → Bool
  | .cleaning _ | .returned _ | .threw _ | .crashed => false
  | _ => true

/-- The staged archive is read back, checked by the caller, compared and hashed. -/
def verifyArchiveStep (state : PublishState) (refusal : Option String) : Option PublishState :=
  (state.staging.bind Staging.archive).map fun written =>
    match refusal with
    | some cause => { state with stage := .cleaning (.error cause) }
    | none =>
      if written ≠ utf8 options.serialized then
        { state with
          stage :=
            .cleaning (.error "archive bytes on disk do not match the serialized archive") }
      else { state with stage := .stageDigest (hash written) }

def stageDigestStep (state : PublishState) (sha256 : String) : PublishState :=
  match formatBackupDigest sha256 (basename options.outputPath) with
  | .error cause => { state with stage := .cleaning (.error cause) }
  | .ok line =>
    { state with
      staging := state.staging.map fun staged => { staged with digest := some (utf8 line) }
      stage := .removeOldDigest sha256 }

/-- An absent sidecar answers `ENOENT`, which is no failure. -/
def removeOldDigestStep (state : PublishState) (sha256 : String) : PublishState :=
  { state with
    files := { state.files with digest := .absent }
    removedOldDigest := state.files.digest ≠ .absent
    stage := .publishArchive sha256 }

def publishArchiveStep (state : PublishState) (sha256 : String) : Option PublishState :=
  (state.staging.bind Staging.archive).map fun bytes =>
    { state with
      files := { state.files with archive := .file bytes }
      staging := state.staging.map fun staged => { staged with archive := none }
      publishedArchive := true
      stage := .publishDigest sha256 }

def publishDigestStep (state : PublishState) (sha256 : String) : Option PublishState :=
  (state.staging.bind Staging.digest).map fun bytes =>
    { state with
      files := { state.files with digest := .file bytes }
      staging := state.staging.map fun staged => { staged with digest := none }
      stage := .cleaning (.ok sha256) }

def removeStagingStep (state : PublishState) (reason : Option String)
    (outcome : Except String String)
    : PublishState :=
  let left := if state.staging.isSome then reason else none
  { state with
    staging := if left.isSome then state.staging else none
    stage :=
      match outcome with
      | .ok sha256 =>
        .returned {
          sha256
          digestPath := backupDigestPath options.outputPath
          stagingLeft := left }
      | .error cause =>
        .threw (cause ++ "; " ++ publishedState options state
          ++ (left.map fun reason => "; the staging directory could not be removed ("
            ++ reason ++ "): remove it by hand").getD "") }

def publishStep (state : PublishState) : PublishLabel → Option PublishState
  | .stageArchive written =>
    match state.stage with
    | .stageArchive =>
      some { state with staging := some { archive := some written }, stage := .syncArchive }
    | _ => none
  | .syncArchive =>
    match state.stage with
    | .syncArchive => some { state with stage := .verifyArchive }
    | _ => none
  | .verifyArchive refusal =>
    match state.stage with
    | .verifyArchive => verifyArchiveStep hash options state refusal
    | _ => none
  | .stageDigest =>
    match state.stage with
    | .stageDigest sha256 => some (stageDigestStep options state sha256)
    | _ => none
  | .removeOldDigest =>
    match state.stage with
    | .removeOldDigest sha256 => some (removeOldDigestStep state sha256)
    | _ => none
  | .publishArchive =>
    match state.stage with
    | .publishArchive sha256 => publishArchiveStep state sha256
    | _ => none
  | .publishDigest =>
    match state.stage with
    | .publishDigest sha256 => publishDigestStep state sha256
    | _ => none
  | .fail cause left =>
    if state.stage.publishing then
      some { state with staging := left, stage := .cleaning (.error cause) }
    else none
  | .removeStaging reason =>
    match state.stage with
    | .cleaning outcome => some (removeStagingStep options state reason outcome)
    | _ => none
  | .crash left => some { state with staging := left, stage := .crashed }

/-- A publication over names that hold `start`. -/
def publication (start : Published) : System PublishState PublishLabel where
  initial state :=
    state = {
      files := start
      staging := none
      removedOldDigest := false
      publishedArchive := false
      stage := .stageArchive }
  step := publishStep hash options

-- Reading

inductive RefusalCode where
  | archiveUnreadable
  | digestMissing
  | digestUnreadable
  | digestInvalid
  | digestMismatch
  | archiveRefused
deriving DecidableEq

/-- Why an archive's content is not restorable. -/
structure ArchiveRefusal where
  code : String
  reason : String
  location : String

inductive BackupArtifact (Archive : Type) where
  | verified (archive : Archive) (sha256 digestPath : String)
  | refused (code : RefusalCode) (reason : String) (sha256 : Option String)

variable {Archive : Type} (parseRestoreArchive : Bytes → Except ArchiveRefusal Archive)

def putSidecar : String := "put the .sha256 file written with this archive beside it"

/-- The reasons of `readBackupArtifact`, restore being what stopped. -/
def stopped : String := "restore stopped before any write"

def digestMissingReason (archivePath : String) : String :=
  "archive digest sidecar " ++ backupDigestPath archivePath ++ " not found; " ++ stopped
    ++ ". flair backup writes the archive's SHA-256 to that file beside the archive: " ++ putSidecar
    ++ ", or take a new backup. An archive written before flair backup published digests has no "
    ++ "sidecar: restore admits it only after the operator approves it on this host with flair "
    ++ "backup-approval legacy-parseRestoreArchive " ++ archivePath ++ "."

def readSidecar (archivePath sha256 : String) (digest : Entry)
    : Except (BackupArtifact Archive) Bytes :=
  match digest, digest.read with
  | _, .ok bytes => .ok bytes
  | .absent, _ =>
    .error (.refused .digestMissing (digestMissingReason archivePath) (some sha256))
  | .dangling, _ =>
    .error (.refused .digestUnreadable
      ("archive digest sidecar " ++ backupDigestPath archivePath
        ++ " is a symbolic link whose target does not exist; " ++ stopped
        ++ ". Replace it with the .sha256 file written with this archive.") (some sha256))
  | _, .error code =>
    .error (.refused .digestUnreadable
      ("cannot read archive digest sidecar " ++ backupDigestPath archivePath ++ " (" ++ code
        ++ "); " ++ stopped ++ ". Check that the sidecar is a file this user can read, or "
        ++ putSidecar ++ ".") (some sha256))

/-- `readBackupArtifact`: the archive is read and hashed once, the sidecar read once, their
digests compared, and only then the archive's own admission considered.
-/
def readBackupArtifact (archivePath : String) (files : Published) : BackupArtifact Archive :=
  match files.archive.read with
  | .error code =>
    .refused .archiveUnreadable
      ("cannot read archive " ++ archivePath ++ " (" ++ code ++ "); " ++ stopped
        ++ ". Check the path and that this user can read the file.") none
  | .ok bytes =>
    match readSidecar archivePath (hash bytes) files.digest with
    | .error refusal => refusal
    | .ok sidecar =>
      match parseBackupDigest sidecar with
      | .error reason =>
        .refused .digestInvalid
          ("archive digest sidecar " ++ backupDigestPath archivePath
            ++ " is not a SHA-256 digest line (" ++ reason ++ "); " ++ stopped ++ ". "
            ++ "Put the .sha256 file written with this archive beside it, or take a new "
            ++ "backup.") (some (hash bytes))
      | .ok recorded =>
        if recorded ≠ hash bytes then
          .refused .digestMismatch
            ("archive " ++ archivePath ++ " does not match its digest sidecar: its bytes "
              ++ "hash to SHA-256 " ++ hash bytes ++ ", and " ++ backupDigestPath archivePath
              ++ " records " ++ recorded ++ "; " ++ stopped ++ ". Use a copy of the archive "
              ++ "and sidecar that match each other (from the archive's directory, shasum -a "
              ++ "256 -c checks a pair; for a file name containing a carriage return use GNU "
              ++ "sha256sum -c), or take a new backup.") (some (hash bytes))
        else
          match parseRestoreArchive bytes with
          | .error refusal =>
            .refused .archiveRefused
              ("archive " ++ archivePath ++ " matches its digest sidecar but is not a "
                ++ "restorable archive: " ++ refusal.reason ++ " (" ++ refusal.code
                ++ " at " ++ (if refusal.location = "" then "/" else refusal.location)
                ++ "); " ++ stopped ++ ". Restore from another backup, or take a new one.")
              (some (hash bytes))
          | .ok archive =>
            .verified archive (hash bytes) (backupDigestPath archivePath)

end Flair.Backups
