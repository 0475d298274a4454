import Mathlib.Data.Nat.Bitwise
import Flair.Approvals.ApprovalRecords
import Flair.Backups.DigestSidecar
import Flair.Foundations.InsertionMap
import Flair.Foundations.IsoTime
import Flair.Foundations.Systems

/-! The approval store as its files: approvals, revocations and loads, one transition for each
file operation, any of which may fail or be the last of its process. Follows
`src/lib/backup-approval-store.ts`.
-/

namespace Flair.Approvals

open Backups Dynamic Transition

-- Files

inductive FileKind where
  | file
  | directory
  | symbolicLink
  | other
deriving DecidableEq

/-- What `lstat` reads of an entry. -/
structure Stats where
  kind : FileKind
  uid : Nat
  mode : Nat
deriving DecidableEq

structure Buffer where
  bytes : Bytes
  bounded : bytes.length < 2 ^ 53
deriving DecidableEq

structure StoredFile (α : Type) where
  stat : Stats
  content : α

inductive StoreDir where
  | root
  | archives
  | approvals
deriving DecidableEq

/-- `.<sha256>.<pid>.<random>.tmp` -/
structure TempName where
  sha256 : String
  pid : Nat
  random : Nat
deriving DecidableEq

/-- A rename that published a record: the call that made it, the record a revocation had
read, what the rename replaced and what it put there. The code keeps no such log.
-/
structure RecordWrite where
  call : Nat
  revokes : Option ApprovalRecord
  replaced : Option (Except String Value)
  record : ApprovalRecord

/-- The store's files. Managed files are kept under their digests; a temp file has no content
until it is written out. `strays` are the names of a directory that are none of these.
-/
structure Store where
  dir : StoreDir → Option Stats
  strays : StoreDir → List String
  archives : InsertionMap String (StoredFile Buffer)
  approvals : InsertionMap String (StoredFile (Except String Value))
  archiveTemps : InsertionMap TempName (StoredFile (Option Buffer))
  approvalTemps : InsertionMap TempName (StoredFile (Option Value))
  writes : List RecordWrite

/-- The host's side of the store: the current user, each calling process's umask, the hash
and the archive parser's refusals.
-/
structure Host where
  uid : Option Nat
  umask : Nat → Nat
  sha256Of : Buffer → String
  archiveRefusal : Buffer → Option String

inductive ApprovalStoreErrorCode where
  | storeUnsafe
  | recordInvalid
  | storedMismatch
  | notApproved
  | alreadyRevoked
  | invalidDigest
  | ioError
deriving DecidableEq

open ApprovalStoreErrorCode

-- Checks

variable (host : Host)

/-- `uid === undefined || st.uid === uid` -/
def owned (stat : Stats) : Bool := host.uid.all (· == stat.uid)

def checkPrivateDirectory (stat : Stats) : Bool :=
  stat.kind = .directory && owned host stat && stat.mode &&& 0o777 = 0o700

def checkPrivateFile (stat : Stats) : Bool :=
  stat.kind = .file && owned host stat && stat.mode &&& 0o777 = 0o600

def checkTempFile (stat : Stats) : Bool :=
  stat.kind = .file && owned host stat && stat.mode &&& 0o077 = 0

def checkEntries (store : Store) : StoreDir → Bool
  | .root => (store.strays .root).isEmpty
  | .archives =>
    (store.strays .archives).isEmpty
      && store.archives.all (fun entry => checkPrivateFile host entry.2.stat)
      && store.archiveTemps.all (fun entry => checkTempFile host entry.2.stat)
  | .approvals =>
    (store.strays .approvals).isEmpty
      && store.approvals.all (fun entry => checkPrivateFile host entry.2.stat)
      && store.approvalTemps.all (fun entry => checkTempFile host entry.2.stat)

/-- The checks of `openStore` before it creates anything. -/
def openStoreAccepts (store : Store) : Bool :=
  match store.dir .root with
  | none => true
  | some root =>
    checkPrivateDirectory host root && checkEntries host store .root
      && [StoreDir.archives, StoreDir.approvals].all fun dir =>
        match store.dir dir with
        | none => true
        | some stat => checkPrivateDirectory host stat && checkEntries host store dir

/-- `readRecord`; `none` when there is no record. -/
def readRecord (store : Store) (sha256 : String)
    : Except ApprovalStoreErrorCode (Option ApprovalRecord) :=
  match store.approvals.get sha256 with
  | none => .ok none
  | some file =>
    if checkPrivateFile host file.stat = false then .error storeUnsafe
    else
      match parseApprovalRecord file.content sha256 with
      | .error _ => .error recordInvalid
      | .ok record => .ok (some record)

/-- `readStoredArchive`; `none` when there is no copy. -/
def readStoredArchive (store : Store) (sha256 : String)
    : Except ApprovalStoreErrorCode (Option Buffer) :=
  match store.archives.get sha256 with
  | none => .ok none
  | some file =>
    if checkPrivateFile host file.stat then .ok (some file.content) else .error storeUnsafe

-- Calls

structure ApproveArchiveInput where
  bytes : Buffer
  sha256 : String
  admission : ApprovalAdmission
  operator : String
  archiveName : String
  now : Option String

structure RevokeInput where
  sha256 : String
  operator : String
  now : Option String

inductive StoreRequest where
  | approve (input : ApproveArchiveInput)
  | revoke (input : RevokeInput)
  | load (sha256 : String)

/-- Where `approveArchive` stands before its next file operation, up to the record. -/
inductive ApproveStage where
  | opening
  | readingRecord
  | readingPrior
  | reopening
  | ensuring (dir : StoreDir)
  | settingMode (dir : StoreDir)
  | inspecting (dir : StoreDir)
  | readingExisting
  | stagingArchive
  | fillingArchive (name : TempName)
  | publishingArchive (name : TempName)
  | droppingTemp (name : TempName)
  | verifying

/-- Where `writeRecord` stands. -/
inductive WriteStage where
  | staging
  | filling (name : TempName)
  | publishing (name : TempName)

inductive LoadStage where
  | opening
  | readingRecord
  | readingCopy (record : ApprovalRecord)

inductive LoadRefusal where
  | notApproved
  | revoked
  | storedMissing
  | storedMismatch
  | archiveRefused
  | storeUnsafe
  | recordInvalid

inductive CallStage where
  | idle
  | approving (input : ApproveArchiveInput) (at_ : ApproveStage)
  | openingToRevoke (input : RevokeInput)
  | readingToRevoke (input : RevokeInput)
  | writing (revokes : Option ApprovalRecord) (record : ApprovalRecord) (at_ : WriteStage)
  | returned (record : ApprovalRecord)
  | crashed
  | threw (code : ApprovalStoreErrorCode)
  | loading (sha256 : String) (at_ : LoadStage)
  | loaded (record : ApprovalRecord) (bytes : Buffer)
  | refused (code : LoadRefusal)

/-- What the file system does at a step: whether the operation throws, whether a removal
after a failure fails as well, the random part of a temp file's name and the clock.
-/
structure Outcome where
  fails : Bool
  lingers : Bool
  random : Nat
  now : Int

/-- `new Date().toISOString()` -/
def Outcome.iso (out : Outcome) : String := (IsoTime.toISOString out.now).getD ""

/-- The checks a call makes before its first file operation. -/
def begin_ : StoreRequest → CallStage
  | .approve input =>
    if isSha256Hex input.sha256 = false then .threw invalidDigest
    else if host.sha256Of input.bytes ≠ input.sha256 then .threw storedMismatch
    else if input.operator = "" then .threw recordInvalid
    else .approving input .opening
  | .revoke input =>
    if isSha256Hex input.sha256 = false then .threw invalidDigest
    else if input.operator = "" then .threw recordInvalid
    else .openingToRevoke input
  | .load sha256 =>
    if isSha256Hex sha256 = false then .refused .notApproved else .loading sha256 .opening

-- File operations

def narrowed (mode umask : Nat) : Nat := mode ^^^ (mode &&& umask)

def ownStat (kind : FileKind) (mode : Nat) : Stats where
  kind
  uid := host.uid.getD 0
  mode

namespace Store

variable (store : Store)

/-- `mkdirSync(path, { mode: 0o700 })` of a missing directory. -/
def makeDir (call : Nat) (dir : StoreDir) : Store :=
  { store with
    dir := Function.update store.dir dir
      (some (ownStat host .directory (narrowed 0o700 (host.umask call)))) }

/-- `chmodSync(path, 0o700)` -/
def setMode (dir : StoreDir) : Store :=
  { store with
    dir := Function.update store.dir dir
      ((store.dir dir).map fun stat => { stat with mode := 0o700 }) }

/-- `openSync(path, "wx", 0o600)` of a name that is not there. -/
def createArchiveTemp (call : Nat) (name : TempName) : Store :=
  { store with
    archiveTemps := store.archiveTemps.set name
      { stat := ownStat host .file (narrowed 0o600 (host.umask call)), content := none } }

/-- The rest of `writeNewPrivateFile`. -/
def fillArchiveTemp (name : TempName) (bytes : Buffer) : Store :=
  { store with
    archiveTemps := store.archiveTemps.set name
      { stat := ownStat host .file 0o600, content := some bytes } }

def dropArchiveTemp (name : TempName) (lingers : Bool) : Store :=
  { store with
    archiveTemps := if lingers then store.archiveTemps else store.archiveTemps.delete name }

/-- `linkSync(staged, final)` of a name that is not there. -/
def linkArchive (sha256 : String) (stat : Stats) (bytes : Buffer) : Store :=
  { store with archives := store.archives.set sha256 { stat, content := bytes } }

def createApprovalTemp (call : Nat) (name : TempName) : Store :=
  { store with
    approvalTemps := store.approvalTemps.set name
      { stat := ownStat host .file (narrowed 0o600 (host.umask call)), content := none } }

def fillApprovalTemp (name : TempName) (value : Value) : Store :=
  { store with
    approvalTemps := store.approvalTemps.set name
      { stat := ownStat host .file 0o600, content := some value } }

def dropApprovalTemp (name : TempName) (lingers : Bool) : Store :=
  { store with
    approvalTemps := if lingers then store.approvalTemps else store.approvalTemps.delete name }

/-- `renameSync(staged, final)` -/
def renameRecord (call : Nat) (revokes : Option ApprovalRecord) (record : ApprovalRecord)
    (name : TempName) (stat : Stats) (value : Value) : Store :=
  { store with
    approvals := store.approvals.set record.sha256 { stat, content := .ok value }
    approvalTemps := store.approvalTemps.delete name
    writes := {
      call
      revokes
      replaced := (store.approvals.get record.sha256).map StoredFile.content
      record } :: store.writes }

end Store

-- Steps

def afterDir : StoreDir → ApproveStage
  | .root => .ensuring .archives
  | .archives => .ensuring .approvals
  | .approvals => .readingExisting

def approvalRecord (input : ApproveArchiveInput) (stored : Buffer) (iso : String)
    : ApprovalRecord where
  sha256 := input.sha256
  admission := input.admission
  approvedAt := input.now.getD iso
  approvedBy := input.operator
  archiveName := input.archiveName
  size := stored.bytes.length
  revokedAt := none
  revokedBy := none

/-- `{ ...record, revokedAt: now ?? new Date().toISOString(), revokedBy: operator }` -/
def revokedRecord (input : RevokeInput) (record : ApprovalRecord) (iso : String)
    : ApprovalRecord :=
  { record with revokedAt := some (input.now.getD iso), revokedBy := some input.operator }

/-- One file operation of `approveArchive` before its record. -/
def approveStep (store : Store) (call : Nat) (input : ApproveArchiveInput) (out : Outcome)
    : ApproveStage → Store × CallStage
  | .opening =>
    if out.fails then (store, .threw ioError)
    else if openStoreAccepts host store = false then (store, .threw storeUnsafe)
    else if (store.dir .root).isNone then (store, .approving input .reopening)
    else (store, .approving input .readingRecord)
  | .readingRecord =>
    if out.fails then (store, .threw ioError)
    else
      match readRecord host store input.sha256 with
      | .error code => (store, .threw code)
      | .ok _ => (store, .approving input .readingPrior)
  | .readingPrior =>
    if out.fails then (store, .threw ioError)
    else
      match readStoredArchive host store input.sha256 with
      | .error code => (store, .threw code)
      | .ok prior =>
        if prior.all (host.sha256Of · == input.sha256) then
          (store, .approving input .reopening)
        else (store, .threw storedMismatch)
  | .reopening =>
    if out.fails then (store, .threw ioError)
    else if openStoreAccepts host store = false then (store, .threw storeUnsafe)
    else (store, .approving input (.ensuring .root))
  | .ensuring dir =>
    if out.fails then (store, .threw ioError)
    else if (store.dir dir).isSome then (store, .approving input (.inspecting dir))
    else (store.makeDir host call dir, .approving input (.settingMode dir))
  | .settingMode dir =>
    if out.fails then (store, .threw ioError)
    else (store.setMode dir, .approving input (.inspecting dir))
  | .inspecting dir =>
    if out.fails then (store, .threw ioError)
    else if (store.dir dir).any (checkPrivateDirectory host) then
      (store, .approving input (afterDir dir))
    else (store, .threw storeUnsafe)
  | .readingExisting =>
    if out.fails then (store, .threw ioError)
    else
      match readStoredArchive host store input.sha256 with
      | .error code => (store, .threw code)
      | .ok none => (store, .approving input .stagingArchive)
      | .ok (some existing) =>
        if host.sha256Of existing = input.sha256 then (store, .approving input .verifying)
        else (store, .threw storedMismatch)
  | .stagingArchive =>
    let name : TempName := ⟨input.sha256, call, out.random⟩
    if out.fails || (store.archiveTemps.get name).isSome then
      (store.dropArchiveTemp name out.lingers, .threw ioError)
    else (store.createArchiveTemp host call name, .approving input (.fillingArchive name))
  | .fillingArchive name =>
    if out.fails then (store.dropArchiveTemp name out.lingers, .threw ioError)
    else
      (store.fillArchiveTemp host name input.bytes, .approving input (.publishingArchive name))
  | .publishingArchive name =>
    if out.fails then (store.dropArchiveTemp name out.lingers, .threw ioError)
    else if (store.archives.get input.sha256).isSome then
      (store.dropArchiveTemp name out.lingers, .threw storedMismatch)
    else
      match store.archiveTemps.get name with
      | some ⟨stat, some bytes⟩ =>
        (store.linkArchive input.sha256 stat bytes, .approving input (.droppingTemp name))
      | _ => (store.dropArchiveTemp name out.lingers, .threw ioError)
  | .droppingTemp name =>
    (store.dropArchiveTemp name out.lingers, .approving input .verifying)
  | .verifying =>
    if out.fails then (store, .threw ioError)
    else
      match readStoredArchive host store input.sha256 with
      | .error code => (store, .threw code)
      | .ok none => (store, .threw storedMismatch)
      | .ok (some stored) =>
        if host.sha256Of stored = input.sha256 then
          (store, .writing none (approvalRecord input stored out.iso) .staging)
        else (store, .threw storedMismatch)

/-- One file operation of `writeRecord`. -/
def writeStep (store : Store) (call : Nat) (revokes : Option ApprovalRecord)
    (record : ApprovalRecord) (out : Outcome) : WriteStage → Store × CallStage
  | .staging =>
    let name : TempName := ⟨record.sha256, call, out.random⟩
    if out.fails || (store.approvalTemps.get name).isSome then
      (store.dropApprovalTemp name out.lingers, .threw ioError)
    else (store.createApprovalTemp host call name, .writing revokes record (.filling name))
  | .filling name =>
    if out.fails then (store.dropApprovalTemp name out.lingers, .threw ioError)
    else
      (store.fillApprovalTemp host name (serializeRecord record),
        .writing revokes record (.publishing name))
  | .publishing name =>
    if out.fails then (store.dropApprovalTemp name out.lingers, .threw ioError)
    else
      match store.approvalTemps.get name with
      | some ⟨stat, some value⟩ =>
        (store.renameRecord call revokes record name stat value, .returned record)
      | _ => (store.dropApprovalTemp name out.lingers, .threw ioError)

/-- The read of `revokeApproval` and its checks. -/
def revokeStage (store : Store) (input : RevokeInput) (iso : String) : CallStage :=
  match readRecord host store input.sha256 with
  | .error code => .threw code
  | .ok none => .threw notApproved
  | .ok (some record) =>
    match record.revokedAt with
    | some _ => .threw alreadyRevoked
    | none => .writing (some record) (revokedRecord input record iso) .staging

/-- One file operation of `loadApprovedArchive`. -/
def loadStage (store : Store) (sha256 : String) (out : Outcome) : LoadStage → CallStage
  | .opening =>
    if out.fails then .threw ioError
    else if openStoreAccepts host store = false then .refused .storeUnsafe
    else if (store.dir .root).isNone then .refused .notApproved
    else .loading sha256 .readingRecord
  | .readingRecord =>
    if out.fails then .threw ioError
    else
      match readRecord host store sha256 with
      | .error recordInvalid => .refused .recordInvalid
      | .error _ => .refused .storeUnsafe
      | .ok none => .refused .notApproved
      | .ok (some record) =>
        if record.revokedAt.isSome then .refused .revoked
        else .loading sha256 (.readingCopy record)
  | .readingCopy record =>
    if out.fails then .threw ioError
    else
      match readStoredArchive host store sha256 with
      | .error _ => .refused .storeUnsafe
      | .ok none => .refused .storedMissing
      | .ok (some bytes) =>
        if host.sha256Of bytes ≠ sha256 then .refused .storedMismatch
        else if (host.archiveRefusal bytes).isSome then .refused .archiveRefused
        else .loaded record bytes

def advance (store : Store) (call : Nat) (out : Outcome) : CallStage → Option (Store × CallStage)
  | .approving input at_ => some (approveStep host store call input out at_)
  | .openingToRevoke input =>
    if out.fails then some (store, .threw ioError)
    else if openStoreAccepts host store = false then some (store, .threw storeUnsafe)
    else if (store.dir .root).isNone then some (store, .threw notApproved)
    else some (store, .readingToRevoke input)
  | .readingToRevoke input =>
    if out.fails then some (store, .threw ioError)
    else some (store, revokeStage host store input out.iso)
  | .writing revokes record at_ => some (writeStep host store call revokes record out at_)
  | .loading sha256 at_ => some (store, loadStage host store sha256 out at_)
  | _ => none

def CallStage.running : CallStage → Bool
  | .approving _ _ | .openingToRevoke _ | .readingToRevoke _ | .writing _ _ _ | .loading _ _ =>
    true
  | _ => false

structure ApprovalState where
  store : Store
  call : Nat → CallStage

inductive ApprovalLabel where
  | begin_ (call : Nat) (request : StoreRequest)
  | advance (call : Nat) (out : Outcome)
  | crash (call : Nat)

def ApprovalState.goto (state : ApprovalState) (call : Nat) (stage : CallStage)
    : ApprovalState :=
  { state with call := Function.update state.call call stage }

structure Store.Rooted (store : Store) : Prop where
  root : store.dir .root = none
    → store.strays .root = [] ∧ store.dir .archives = none ∧ store.dir .approvals = none
  archives : store.dir .archives = none
    → store.strays .archives = [] ∧ store.archives = [] ∧ store.archiveTemps = []
  approvals : store.dir .approvals = none
    → store.strays .approvals = [] ∧ store.approvals = [] ∧ store.approvalTemps = []

/-- Any store its checks accept, before the calls begin. The clock shows a date. -/
def approvals : System ApprovalState ApprovalLabel where
  initial state :=
    openStoreAccepts host state.store = true ∧ state.store.Rooted ∧ state.store.writes = []
      ∧ ∀ call, state.call call = .idle
  step state label :=
    match label with
    | .begin_ call request =>
      match state.call call with
      | .idle => some (state.goto call (begin_ host request))
      | _ => none
    | .advance call out =>
      if (IsoTime.toISOString out.now).isNone then none
      else
        (advance host state.store call out (state.call call)).map fun (store, stage) =>
          { state with store }.goto call stage
    | .crash call =>
      if (state.call call).running then some (state.goto call .crashed) else none

end Flair.Approvals
