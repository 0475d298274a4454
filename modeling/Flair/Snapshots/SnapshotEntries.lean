import Flair.Foundations.PathResolution

/-! The entries of a snapshot archive and the check of each by its text alone. Follows
`src/lib/safe-snapshot-extract.ts`.
-/

namespace Flair.Snapshots

open PathResolution

-- Texts

abbrev Text := List Char

/-- A path text read by the file system: empty parts say nothing. -/
def segments (text : Text) : List (Segment Text) :=
  (text.splitOnP (· = '/')).map fun part =>
    if part = [] ∨ part = ['.'] then .here else if part = ['.', '.'] then .up else .name part

/-- `path.isAbsolute(p)` -/
def isAbsolute (text : Text) : Bool :=
  match text with
  | '/' :: _ => true
  | _ => false

def isLetter (c : Char) : Bool := ('a' ≤ c && c ≤ 'z') || ('A' ≤ c && c ≤ 'Z')

def hasDrive (text : Text) : Bool :=
  match text with
  | drive :: ':' :: separator :: _ => isLetter drive && (separator = '\\' || separator = '/')
  | _ => false

def looksAbsolute (text : Text) : Bool :=
  isAbsolute text || hasDrive text || ['\\', '\\'].isPrefixOf text

/-- `resolve(base, text)` -/
def resolveFrom (base : Path Text) (text : Text) : Path Text :=
  lexical (if isAbsolute text then [] else base) (segments text)

/-- `candidate === root || candidate.startsWith(root + sep)`: nothing starts with the separator
twice, so the root of the file system holds only itself.
-/
def isWithin (candidate root : Path Text) : Bool :=
  candidate = root || (root ≠ [] && root.isPrefixOf candidate)

def pathText (path : Path Text) : String :=
  "/" ++ "/".intercalate (path.map String.ofList)

-- Entries

inductive EntryType where
  | file
  | directory
  | link
  | symbolicLink
  | other
deriving DecidableEq

/-- An entry of an archive; its path is empty where it could not be read. -/
structure TarEntry where
  path : Text
  type : EntryType
  linkpath : Option Text
deriving DecidableEq

def TarEntry.linkTarget (entry : TarEntry) : Option Text := entry.linkpath.filter (· ≠ [])

def linkText (text : Text) : LinkText Text where
  absolute := isAbsolute text
  segments := segments text

-- What the check says

end Flair.Snapshots
