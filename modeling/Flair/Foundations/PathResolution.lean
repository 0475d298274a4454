import Mathlib.Data.List.Basic

/-! Paths read by their text and paths resolved through symbolic links. Reading a path by its
text and resolving it agree on containment as long as no `..` is taken at or beneath a link:
whatever is resolved from within a directory then ends within it.
-/

namespace PathResolution

universe u

variable {Name : Type u}

inductive Segment (Name : Type u) where
  | here
  | up
  | name (name : Name)
deriving DecidableEq

abbrev Path (Name : Type u) := List Name

/-- The target of a symbolic link, read from the root or from the link's own directory. -/
structure LinkText (Name : Type u) where
  absolute : Bool
  segments : List (Segment Name)
deriving DecidableEq

inductive Node (Name : Type u) where
  | dir
  | file
  | link (text : LinkText Name)
deriving DecidableEq

abbrev Nodes (Name : Type u) := Path Name → Option (Node Name)

-- By the text

def lexical : Path Name → List (Segment Name) → Path Name
  | cur, [] => cur
  | cur, .here :: rest => lexical cur rest
  | cur, .up :: rest => lexical cur.dropLast rest
  | cur, .name name :: rest => lexical (cur ++ [name]) rest

def Beneath (marked : Path Name → Prop) (path : Path Name) : Prop :=
  ∃ front, front <+: path ∧ marked front

/-- No `..` is taken at or beneath a marked path. -/
def UpsClear (marked : Path Name → Prop) : Path Name → List (Segment Name) → Prop
  | _, [] => True
  | cur, .here :: rest => UpsClear marked cur rest
  | cur, .up :: rest => ¬ Beneath marked cur ∧ UpsClear marked cur.dropLast rest
  | cur, .name name :: rest => UpsClear marked (cur ++ [name]) rest

/-- The text ends within a directory and takes no `..` at or beneath a marked path. -/
def Confined (root : Path Name) (marked : Path Name → Prop) (cur : Path Name)
    (segments : List (Segment Name))
    : Prop :=
  UpsClear marked cur segments ∧ root <+: lexical cur segments

def NoUps (segments : List (Segment Name)) : Prop := ∀ segment ∈ segments, segment ≠ .up

variable {marked fewer : Path Name → Prop} {root cur : Path Name}
  {segments more : List (Segment Name)}

theorem Beneath.extend (h : Beneath marked cur) (name : Name) : Beneath marked (cur ++ [name]) := by
  obtain ⟨front, below, isMarked⟩ := h
  exact ⟨front, below.trans (List.prefix_append cur [name]), isMarked⟩

theorem Beneath.mono (h : Beneath fewer cur) (all : ∀ path, fewer path → marked path)
    : Beneath marked cur := by
  obtain ⟨front, below, isMarked⟩ := h
  exact ⟨front, below, all front isMarked⟩

theorem lexical_append (cur : Path Name) (segments more : List (Segment Name))
    : lexical cur (segments ++ more) = lexical (lexical cur segments) more := by
  induction segments generalizing cur with
  | nil => rfl
  | cons segment rest ih => cases segment <;> exact ih _

theorem upsClear_append
    : UpsClear marked cur (segments ++ more)
      ↔ UpsClear marked cur segments ∧ UpsClear marked (lexical cur segments) more := by
  induction segments generalizing cur with
  | nil => simp [UpsClear, lexical]
  | cons segment rest ih =>
    cases segment with
    | here => exact ih
    | up => simp only [List.cons_append, UpsClear, lexical, ih, and_assoc]
    | name name => exact ih

theorem UpsClear.mono (h : UpsClear marked cur segments) (all : ∀ path, fewer path → marked path)
    : UpsClear fewer cur segments := by
  induction segments generalizing cur with
  | nil => trivial
  | cons segment rest ih =>
    cases segment with
    | here => exact @ih cur h
    | up => exact ⟨fun beneath => h.1 (beneath.mono all), ih h.2⟩
    | name name => exact @ih (cur ++ [name]) h

theorem UpsClear.both {other : Path Name → Prop} (h : UpsClear marked cur segments)
    (also : UpsClear other cur segments)
    : UpsClear (fun path => marked path ∨ other path) cur segments := by
  induction segments generalizing cur with
  | nil => trivial
  | cons segment rest ih =>
    cases segment with
    | here => exact @ih cur h also
    | up =>
      refine ⟨?_, ih h.2 also.2⟩
      rintro ⟨front, below, first | second⟩
      · exact h.1 ⟨front, below, first⟩
      · exact also.1 ⟨front, below, second⟩
    | name name => exact @ih (cur ++ [name]) h also

theorem NoUps.tail {segment : Segment Name} (h : NoUps (segment :: segments)) : NoUps segments :=
  fun other member => h other (List.mem_cons_of_mem _ member)

theorem NoUps.upsClear (h : NoUps segments) (marked : Path Name → Prop) (cur : Path Name)
    : UpsClear marked cur segments := by
  induction segments generalizing cur with
  | nil => trivial
  | cons segment rest ih =>
    cases segment with
    | here => exact ih h.tail cur
    | up => exact absurd rfl (h _ List.mem_cons_self)
    | name name => exact ih h.tail (cur ++ [name])

theorem NoUps.prefix_lexical (h : NoUps segments) (cur : Path Name)
    : cur <+: lexical cur segments := by
  induction segments generalizing cur with
  | nil => exact List.prefix_rfl
  | cons segment rest ih =>
    cases segment with
    | here => exact ih h.tail cur
    | up => exact absurd rfl (h _ List.mem_cons_self)
    | name name => exact (List.prefix_append cur [name]).trans (ih h.tail (cur ++ [name]))

theorem UpsClear.noUps (h : UpsClear marked cur segments) (beneath : Beneath marked cur)
    : NoUps segments := by
  induction segments generalizing cur with
  | nil => simp [NoUps]
  | cons segment rest ih =>
    have later : segment ≠ .up ∧ NoUps rest := by
      cases segment with
      | here => exact ⟨by simp, @ih cur h beneath⟩
      | up => exact absurd beneath h.1
      | name name => exact ⟨by simp, @ih (cur ++ [name]) h (beneath.extend name)⟩
    intro other member
    rcases List.mem_cons.mp member with rfl | member
    · exact later.1
    · exact later.2 other member

theorem Confined.noUps (within : root <+: cur) (h : NoUps segments) (marked : Path Name → Prop)
    : Confined root marked cur segments :=
  ⟨h.upsClear marked cur, within.trans (h.prefix_lexical cur)⟩

-- Through the links

def LinkText.base (text : LinkText Name) (dir : Path Name) : Path Name :=
  if text.absolute then [] else dir

/-- How far a path leads without following a link. -/
inductive Advance (Name : Type u) where
  | at (path : Path Name)
  | link (dir : Path Name) (text : LinkText Name) (rest : List (Segment Name))
  | stuck

/-- Walk real directories up to the first link. The last name need not exist. -/
def advance (nodes : Nodes Name) : Path Name → List (Segment Name) → Advance Name
  | cur, [] => .at cur
  | cur, .here :: rest => advance nodes cur rest
  | cur, .up :: rest => advance nodes cur.dropLast rest
  | cur, .name name :: rest =>
    match nodes (cur ++ [name]) with
    | some .dir => advance nodes (cur ++ [name]) rest
    | some (.link text) => .link cur text rest
    | some .file | none => if rest.isEmpty then .at (cur ++ [name]) else .stuck

def follow (nodes : Nodes Name) : Nat → Path Name → List (Segment Name) → Option (Path Name)
  | 0, cur, segments =>
    match advance nodes cur segments with
    | .at path => some path
    | .link _ _ _ | .stuck => none
  | limit + 1, cur, segments =>
    match advance nodes cur segments with
    | .at path => some path
    | .link dir text rest => follow nodes limit (text.base dir) (text.segments ++ rest)
    | .stuck => none

def IsLink (nodes : Nodes Name) (path : Path Name) : Prop := ∃ text, nodes path = some (.link text)

structure Enclosed (nodes : Nodes Name) (root : Path Name) : Prop where
  real : ∀ front, front <+: root → nodes front = some .dir
  links : ∀ path text, root <+: path → nodes path = some (.link text)
    → Confined root (IsLink nodes) (text.base path.dropLast) text.segments

variable {nodes : Nodes Name}

theorem Enclosed.within_of_link (h : Enclosed nodes root) {path : Path Name} {text : LinkText Name}
    (found : nodes path = some (.link text))
    (confined : Confined root (IsLink nodes) path segments)
    : root <+: path := by
  have down := confined.1.noUps ⟨path, List.prefix_rfl, text, found⟩
  rcases List.prefix_or_prefix_of_prefix confined.2 (down.prefix_lexical path) with within | above
  · exact within
  · have real := h.real path above
    rw [found] at real
    cases real

def Advance.Confined (root : Path Name) (marked : Path Name → Prop) : Advance Name → Prop
  | .at path => root <+: path
  | .link dir text rest =>
    PathResolution.Confined root marked (text.base dir) (text.segments ++ rest)
  | .stuck => True

theorem Confined.last {path : Path Name} (h : Confined root marked path segments)
    : (if segments.isEmpty then Advance.at path else .stuck).Confined root marked := by
  cases segments with
  | nil => exact h.2
  | cons _ _ => trivial

theorem Enclosed.advance (h : Enclosed nodes root)
    (confined : Confined root (IsLink nodes) cur segments)
    : (advance nodes cur segments).Confined root (IsLink nodes) := by
  induction segments generalizing cur with
  | nil => exact confined.2
  | cons segment rest ih =>
    cases segment with
    | here => exact @ih cur confined
    | up => exact @ih cur.dropLast ⟨confined.1.2, confined.2⟩
    | name name =>
      have next : Confined root (IsLink nodes) (cur ++ [name]) rest := confined
      unfold PathResolution.advance
      cases found : nodes (cur ++ [name]) with
      | none => exact next.last
      | some node =>
        cases node with
        | dir => exact ih next
        | file => exact next.last
        | link text =>
          -- Beneath the link only names follow, so its own confined text decides.
          have within := h.within_of_link found next
          have own := h.links _ text within found
          rw [List.dropLast_concat] at own
          have down := next.1.noUps ⟨_, List.prefix_rfl, text, found⟩
          refine ⟨upsClear_append.mpr ⟨own.1, down.upsClear _ _⟩, ?_⟩
          rw [lexical_append]
          exact own.2.trans (down.prefix_lexical _)

theorem Enclosed.follow (h : Enclosed nodes root) {limit : Nat}
    (confined : Confined root (IsLink nodes) cur segments) {path : Path Name}
    (resolved : follow nodes limit cur segments = some path)
    : root <+: path := by
  induction limit generalizing cur segments with
  | zero | succ limit ih =>
    have first := h.advance confined
    unfold PathResolution.follow at resolved
    split at resolved
    · rename_i led
      cases resolved
      rw [led] at first
      exact first
    · rename_i led
      first
        | cases resolved
        | rw [led] at first
          exact ih first resolved
    · cases resolved

-- Changes

variable {after : Nodes Name}

end PathResolution
