import Flair.Foundations.InsertionMap
import Flair.Snapshots.SnapshotEntries

/-! Extraction of a snapshot archive, entry by entry over a file system that is a map of paths.
Follows `src/lib/safe-snapshot-extract.ts`; what one entry does to the file system follows the
documented behaviour of tar: missing parents are made, whatever stands in the way of the entry
is unlinked, and a hard link to a symbolic link is one more symbolic link.
-/

namespace Flair.Snapshots

open PathResolution

abbrev FileTree := InsertionMap (Path Text) (Node Text)

def FileTree.nodes (fs : FileTree) : Nodes Text := InsertionMap.get fs

/-- An extraction underway: the real paths created or written and the real paths that hard links
were made of so far, and the entries that were left out.
-/
structure Extraction where
  fs : FileTree
  written : List (Path Text)
  hardLinked : List (Path Text)
  runtimeViolations : List (Text × String)

def Extraction.start (fs : FileTree) : Extraction where
  fs
  written := []
  hardLinked := []
  runtimeViolations := []

def nameSegments (names : List Text) : List (Segment Text) := names.map .name

-- The guard before each entry

/-- `existsSync` and `realpathSync` at once. -/
def realpath (limit : Nat) (fs : FileTree) (path : Path Text) : Option (Path Text) :=
  (follow fs.nodes limit [] (nameSegments path)).filter fun real => (fs.nodes real).isSome

/-- `realpathOfNearestExistingAncestor`, walking up at most so many times. -/
def realpathOfNearestExistingAncestor (limit : Nat) (fs : FileTree) : Nat → Path Text → Path Text
  | 0, cur => cur
  | steps + 1, cur =>
    match realpath limit fs cur with
    | some real => real
    | none =>
      if cur = [] then cur
      else realpathOfNearestExistingAncestor limit fs steps cur.dropLast

def filterEntry (limit : Nat) (root : Path Text) (fs : FileTree) (entry : TarEntry)
    : Option String :=
  let anchor := realpathOfNearestExistingAncestor limit fs 256 (resolveFrom root entry.path)
  if isWithin anchor root then none
  else
    some ("entry \"" ++ String.ofList entry.path
      ++ "\" would be written through a symlink to \"" ++ pathText anchor
      ++ "\", outside the target directory")

-- One entry

def below (root path : Path Text) : Option (List Text × Text) :=
  if root.isPrefixOf path then
    (path.drop root.length).getLast?.map fun last => ((path.drop root.length).dropLast, last)
  else none

/-- What making directories leaves: the paths made, and the directory reached, if any. -/
structure MadeDirs where
  fs : FileTree
  made : List (Path Text)
  dir : Option (Path Text)

def makeDirs (limit : Nat) (fs : FileTree) (cur : Path Text) : List Text → MadeDirs
  | [] => ⟨fs, [], some cur⟩
  | name :: rest =>
    let path := cur ++ [name]
    match fs.nodes path with
    | none =>
      let later := makeDirs limit (InsertionMap.set fs path .dir) path rest
      { later with made := path :: later.made }
    | some .dir => makeDirs limit fs path rest
    | some (.link text) =>
      match follow fs.nodes limit (text.base cur) text.segments with
      | some real =>
        if fs.nodes real = some .dir then makeDirs limit fs real rest else ⟨fs, [], none⟩
      | none => ⟨fs, [], none⟩
    | some .file => ⟨fs, [], none⟩

def hardLinkSource (limit : Nat) (root : Path Text) (fs : FileTree) (linkpath : Text)
    : Option (Path Text) :=
  match below root (resolveFrom root linkpath) with
  | none => none
  | some (parents, last) =>
    match follow fs.nodes limit root (nameSegments parents) with
    | some dir => if fs.nodes dir = some .dir then some (dir ++ [last]) else none
    | none => none

def newNode (limit : Nat) (root : Path Text) (fs : FileTree) (entry : TarEntry)
    : Option (Node Text × List (Path Text)) :=
  match entry.type, entry.linkTarget with
  | .file, _ => some (.file, [])
  | .directory, _ => some (.dir, [])
  | .symbolicLink, some text => some (.link (linkText text), [])
  | .link, some linkpath =>
    match hardLinkSource limit root fs linkpath with
    | none => none
    | some source =>
      match fs.nodes source with
      | none | some .dir => none
      | some node => some (node, [source])
  | _, _ => none

def hasChildren (fs : FileTree) (path : Path Text) : Bool :=
  fs.any fun entry => entry.1 ≠ path && path.isPrefixOf entry.1

def putEntry (limit : Nat) (root : Path Text) (state : Extraction) (entry : TarEntry)
    (path : Path Text)
    : Extraction :=
  if state.fs.nodes path = some .dir ∧ entry.type = .directory then
    { state with written := state.written ++ [path] }
  else if state.fs.nodes path = some .dir ∧ hasChildren state.fs path then state
  else
    let fs : FileTree := InsertionMap.delete state.fs path
    match newNode limit root fs entry with
    | none => { state with fs }
    | some (node, sources) =>
      { state with
        fs := InsertionMap.set fs path node
        written := state.written ++ [path]
        hardLinked := state.hardLinked ++ sources }

def applyEntry (limit : Nat) (root : Path Text) (state : Extraction) (entry : TarEntry)
    : Extraction :=
  match entry.type, below root (resolveFrom root entry.path) with
  | .other, _ | _, none => state
  | _, some (parents, last) =>
    let dirs := makeDirs limit state.fs root parents
    let state := { state with fs := dirs.fs, written := state.written ++ dirs.made }
    match dirs.dir with
    | none => state
    | some dir => putEntry limit root state entry (dir ++ [last])

-- An archive

def extractEntry (limit : Nat) (root : Path Text) (state : Extraction) (entry : TarEntry)
    : Extraction :=
  match filterEntry limit root state.fs entry with
  | some reason =>
    { state with
      runtimeViolations := state.runtimeViolations ++ [(entry.path, reason)] }
  | none => applyEntry limit root state entry

end Flair.Snapshots
