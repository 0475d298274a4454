import Mathlib.Data.List.Infix
import Flair.Snapshots.Extraction

/-! Containment of an extraction in its target directory. An accepted archive stays inside as
long as its link targets are read by their text only where that is how the file system reads
them.
-/

namespace Flair.Snapshots

open PathResolution

-- When the text decides

structure ReadByText (root : Path Text) (fs : FileTree) (entryPath linkpath : Text) : Prop where
  /-- A target that looks absolute is one that the file system reads as absolute. -/
  absolute : looksAbsolute linkpath = true → isAbsolute linkpath = true
  /-- The directory of the link is not reached through a link. -/
  direct : ∀ front, root <+: front → front <+: resolveFrom root entryPath
    → front ≠ resolveFrom root entryPath → ¬ IsLink fs.nodes front
  /-- The target takes no `..` at or beneath a link, this one included. -/
  own : UpsClear (fun path => IsLink fs.nodes path ∨ path = resolveFrom root entryPath)
    ((linkText linkpath).base (resolveFrom root entryPath).dropLast) (segments linkpath)
  /-- No earlier link of the target directory takes a `..` at or beneath this one. -/
  earlier : ∀ path text, root <+: path → fs.nodes path = some (.link text)
    → path ≠ resolveFrom root entryPath
    → UpsClear (fun other => other = resolveFrom root entryPath) (text.base path.dropLast)
      text.segments

def beforeCreation (limit : Nat) (root : Path Text) (fs : FileTree) (entry : TarEntry)
    : Option FileTree :=
  match below root (resolveFrom root entry.path) with
  | none => none
  | some (parents, last) =>
    let dirs := makeDirs limit fs root parents
    dirs.dir.map fun dir => InsertionMap.delete dirs.fs (dir ++ [last])

/-- The links of an entry are where their texts say: a symbolic link's target is read by its
text, and a hard link's target is not a symbolic link itself.
-/
structure LinksByText (limit : Nat) (root : Path Text) (fs : FileTree) (entry : TarEntry)
    : Prop where
  symlink : ∀ linkpath, entry.type = .symbolicLink → entry.linkTarget = some linkpath
    → ReadByText root fs entry.path linkpath
  hardLink : ∀ linkpath tree source, entry.type = .link → entry.linkTarget = some linkpath
    → beforeCreation limit root fs entry = some tree
    → hardLinkSource limit root tree linkpath = some source → ¬ IsLink tree.nodes source

-- Parents

variable {limit : Nat} {root cur path : Path Text} {fs : FileTree}

theorem nodes_set (fs : FileTree) (path other : Path Text) (node : Node Text)
    : FileTree.nodes (InsertionMap.set fs path node) other
      = if other = path then some node else fs.nodes other :=
  InsertionMap.get_set node

variable {linkpath : Text}

structure Inside (root : Path Text) (state : Extraction) : Prop where
  enclosed : Enclosed state.fs.nodes root
  written : ∀ path ∈ state.written, root <+: path
  hardLinked : ∀ path ∈ state.hardLinked, root <+: path

variable {state : Extraction}

variable {entry : TarEntry}

variable {cwd : Path Text}

structure FreshTarget (root : Path Text) (fs : FileTree) : Prop where
  real : ∀ front, front <+: root → fs.nodes front = some .dir
  unlinked : ∀ path, root <+: path → ¬ IsLink fs.nodes path

theorem FreshTarget.inside (h : FreshTarget root fs) : Inside root (.start fs) where
  enclosed := ⟨h.real, fun path text within found => absurd ⟨text, found⟩ (h.unlinked path within)⟩
  written _ member := by cases member
  hardLinked _ member := by cases member

/-- Each entry's links are read by their texts, in the file system it meets. -/
def AllByText (limit : Nat) (root : Path Text) : Extraction → List TarEntry → Prop
  | _, [] => True
  | state, entry :: rest =>
    LinksByText limit root state.fs entry
    ∧ AllByText limit root (extractEntry limit root state entry) rest

theorem AllByText.take {before after : List TarEntry}
    (h : AllByText limit root state (before ++ after))
    : AllByText limit root state before := by
  induction before generalizing state with
  | nil => trivial
  | cons entry rest ih => exact ⟨h.1, ih h.2⟩

end Flair.Snapshots
