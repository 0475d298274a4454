import Mathlib.Data.List.Basic

/-! What a config writer observes of its file before and inside the lock, and the first field
in which two observations differ. Follows `src/lib/config-critical-section.ts`.
-/

namespace Flair.ConfigFiles

inductive ConfigEntryType where
  | regular
  | symlink
  | other
  | absent
deriving DecidableEq

structure Identity where
  dev : Nat
  ino : Nat
deriving DecidableEq

structure ConfigEntryObservation where
  type : ConfigEntryType
  identity : Option Identity
deriving DecidableEq

structure ConfigTargetObservation where
  path : String
  type : ConfigEntryType
  identity : Option Identity
deriving DecidableEq

structure ConfigParentObservation where
  path : String
  identity : Identity
deriving DecidableEq

structure ConfigObservation where
  entry : ConfigEntryObservation
  target : ConfigTargetObservation
  parent : ConfigParentObservation
deriving DecidableEq

inductive ConfigObservationField where
  | entryType
  | entryIdentity
  | absence
  | resolvedPath
  | targetIdentity
  | parentIdentity
deriving DecidableEq

def compareObservation (a b : ConfigObservation) : Option ConfigObservationField :=
  let aAbsent := decide (a.target.type = .absent)
  let bAbsent := decide (b.target.type = .absent)
  if a.entry.type ≠ b.entry.type then some .entryType
  else if aAbsent ≠ bAbsent then some .absence
  else if a.parent.identity ≠ b.parent.identity then some .parentIdentity
  else if a.entry.type = .symlink ∧ a.entry.identity ≠ b.entry.identity then some .entryIdentity
  else if ¬ aAbsent ∧ a.target.path ≠ b.target.path then some .resolvedPath
  else if ¬ aAbsent ∧ a.target.identity ≠ b.target.identity then some .targetIdentity
  else none

def fieldLabel : ConfigObservationField → String
  | .entryType => "the configured entry's type"
  | .entryIdentity => "the configured entry's identity"
  | .absence => "the destination's presence"
  | .resolvedPath => "the resolved target path"
  | .targetIdentity => "the target's identity"
  | .parentIdentity => "the resolved parent directory's identity"

def heldLine (field : ConfigObservationField) : String :=
  "held: " ++ fieldLabel field
    ++ " changed between the pre-lock observation and the in-lock re-observe"
    ++ " — nothing written (another Flair writer touched the destination)."

-- The file

abbrev Bytes := List UInt8

/-- What stands at the resolved target: a new inode takes its place at each replacement. -/
inductive Target where
  | absent
  | regular (ino : Nat) (bytes : Bytes)
  | other (ino : Nat)
deriving DecidableEq

def Target.bytes : Target → Option Bytes
  | .regular _ bytes => some bytes
  | .absent | .other _ => none

structure SharedFile where
  targetPath : String
  dev : Nat
  lockPath : String

/-- How a call names the file: by its own path, or through a symbolic link of some identity. -/
structure ConfigName where
  configPath : String
  parent : ConfigParentObservation
  link : Option Identity

/-- `observeConfig`, where a lookup may also fail with a reason. -/
def observeConfig (file : SharedFile) (name : ConfigName) (target : Target)
    (failure : Option String)
    : Except String ConfigObservation :=
  let present (type : ConfigEntryType) (ino : Nat) : ConfigObservation :=
    { entry :=
        match name.link with
        | none => { type, identity := some ⟨file.dev, ino⟩ }
        | some link => { type := .symlink, identity := some link }
      target := { path := file.targetPath, type, identity := some ⟨file.dev, ino⟩ }
      parent := name.parent }
  match failure, target, name.link with
  | some reason, _, _ => .error reason
  | none, .absent, none =>
    .ok {
      entry := { type := .absent, identity := none }
      target := { path := file.targetPath, type := .absent, identity := none }
      parent := name.parent }
  | none, .absent, some _ =>
    .error ("cannot resolve " ++ name.configPath ++ " to a target: ENOENT")
  | none, .regular ino _, _ => .ok (present .regular ino)
  | none, .other ino, _ => .ok (present .other ino)

end Flair.ConfigFiles
