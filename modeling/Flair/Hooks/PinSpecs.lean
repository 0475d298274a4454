import Flair.Foundations.Text
import Mathlib

/-! The version a wiring text pins a package to, and the decision whether a writer may
replace it by the running CLI's own version.
-/

namespace Flair.Hooks

open Dynamic

/-- What the writers take from outside: the running CLI's version and the range test and
comparison of the `semver` package.
-/
structure Cli where
  /-- `flairCliVersion()` -/
  version : String
  /-- `semver.validRange(token) !== null` -/
  validRange : String → Bool
  /-- `semver.compare(a, b)` -/
  compare : String → String → Int

def FLAIR_MCP_PACKAGE : String := "@tpsdev-ai/flair-mcp"

def UNKNOWN_VERSION : String := "unknown"

def isResolvedVersion (version : String) : Bool :=
  decide (version ≠ "") && decide (version ≠ UNKNOWN_VERSION)

def mcpServerSpec (cli : Cli) : String :=
  if isResolvedVersion cli.version then FLAIR_MCP_PACKAGE ++ "@" ++ cli.version
  else FLAIR_MCP_PACKAGE

-- Strict versions

def cutAt (mark : Char) (text : List Char) : List Char × Option (List Char) :=
  (text.takeWhile (· ≠ mark), (text.dropWhile (· ≠ mark)).tail?)

/-- `0|[1-9]\d*` -/
def isNumericIdentifier (text : List Char) : Bool :=
  text ≠ [] && text.all Char.isDigit && (text == ['0'] || text.head? != some '0')

/-- `[0-9a-zA-Z-]` -/
def isIdentifierChar (c : Char) : Bool := c.isAlphanum || c == '-'

/-- `[0-9a-zA-Z-]+` -/
def isBuildIdentifier (text : List Char) : Bool := text ≠ [] && text.all isIdentifierChar

/-- `0|[1-9]\d*|\d*[a-zA-Z-][0-9a-zA-Z-]*` -/
def isPrereleaseIdentifier (text : List Char) : Bool :=
  isBuildIdentifier text && (!text.all Char.isDigit || isNumericIdentifier text)

/-- `STRICT_SEMVER`: no part holds the mark that opens the next, so the first `+` and the
first `-` before it cut the text.
-/
def matchesStrictSemver (text : List Char) : Bool :=
  let (front, build) := cutAt '+' text
  let (core, prerelease) := cutAt '-' front
  (core.splitOn '.').length == 3 && (core.splitOn '.').all isNumericIdentifier
    && prerelease.all (fun text => (text.splitOn '.').all isPrereleaseIdentifier)
    && build.all (fun text => (text.splitOn '.').all isBuildIdentifier)

def isStrictSemver (value : String) : Bool := matchesStrictSemver (trim value).toList

/-- `\d+(?:\.\d+)*(?:-[0-9A-Za-z.-]+)?(?:\+[0-9A-Za-z.-]+)?`, the version of the installer
forms.
-/
def matchesFormVersion (text : List Char) : Bool :=
  let (front, build) := cutAt '+' text
  let (core, prerelease) := cutAt '-' front
  let isSuffix := fun text : List Char =>
    decide (text ≠ []) && text.all (fun c => isIdentifierChar c || c == '.')
  (core.splitOn '.').all (fun digits => decide (digits ≠ []) && digits.all Char.isDigit)
    && prerelease.all isSuffix && build.all isSuffix

-- Wiring specs

inductive WiringTokenKind where
  | version
  | rangeOrTag
  | unsupported
  | none
  | malformed
deriving DecidableEq

structure WiringToken where
  kind : WiringTokenKind
  value : Option String
deriving DecidableEq

structure WiringSpec where
  raw : String
  pkg : String
  token : WiringToken
deriving DecidableEq

/-- The sources `UNSUPPORTED_SOURCE_RE` starts with. -/
def UNSUPPORTED_SOURCES : List String :=
  ["file:", "link:", "git:", "git+https:", "git+ssh:", "github:", "http:", "https:"]

def DIST_TAG_WORDS : List String :=
  ["latest", "next", "beta", "alpha", "rc", "canary", "stable", "dev", "experimental", "*"]

/-- `value.startsWith(prefix)` -/
def startsWith (value opening : String) : Bool := opening.toList.isPrefixOf value.toList

/-- `/^v\d/.test(token)` -/
def startsWithVDigit (token : String) : Bool :=
  match token.toList with
  | 'v' :: c :: _ => c.isDigit
  | _ => false

/-- Strip the `workspace:` or `npm:` protocol of a dependency field's value. -/
def stripSpecProtocol (spec : String) : String :=
  if startsWith spec "workspace:" then String.ofList (spec.toList.drop 10)
  else if startsWith spec "npm:" then String.ofList (spec.toList.drop 4)
  else spec

def partitionWiringToken (cli : Cli) (rawToken : String) : WiringToken :=
  let token := trim rawToken
  if UNSUPPORTED_SOURCES.any (startsWith token) then ⟨.unsupported, some token⟩
  else if token = "" then ⟨.none, none⟩
  else if startsWithVDigit token then ⟨.malformed, some token⟩
  else if isStrictSemver token then ⟨.version, some token⟩
  else if DIST_TAG_WORDS.contains token || cli.validRange token then ⟨.rangeOrTag, some token⟩
  else ⟨.malformed, some token⟩

def isTokenTerminator (c : Char) : Bool :=
  isSpace c || c == '"' || c == '\'' || c == ',' || c == ']'

/-- A match starts at a token boundary: at the start of the text or after a character that
does not continue a name.
-/
def isTokenStart (previous : Option Char) : Bool :=
  match previous with
  | none => true
  | some c => c != '/' && !(c.isAlphanum || c == '_' || c == '-' || c == '.')

def readSpecToken (text : List Char) : List Char := text.takeWhile (!isTokenTerminator ·)

/-- The tokens after the occurrences of `pkg@`, which is not empty, with the number of
characters of the last occurrence still to pass.
-/
def findTokensAfter (needle : List Char) : Option Char → Nat → List Char → List (List Char)
  | _, _, [] => []
  | _, pass + 1, c :: rest => findTokensAfter needle (some c) pass rest
  | previous, 0, c :: rest =>
    if needle.isPrefixOf (c :: rest) then
      let later := findTokensAfter needle (some c) (needle.length - 1) rest
      if isTokenStart previous then readSpecToken ((c :: rest).drop needle.length) :: later
      else later
    else findTokensAfter needle (some c) 0 rest

/-- Envelope A: every `pkg@token` with its raw text. -/
def findPackageSpecs (text pkg : String) : List (String × String) :=
  (findTokensAfter (pkg ++ "@").toList none 0 text.toList).map fun token =>
    (pkg ++ "@" ++ String.ofList token, String.ofList token)

/-- What follows the quoted key of a dependency field, when a quoted value does: its text
up to the closing quote with the field's raw text, or nothing when no quote closes it.
-/
def readFieldValue (text : List Char) : Option (Option (List Char × List Char)) :=
  match text.dropWhile isSpace with
  | ':' :: rest =>
    match rest.dropWhile isSpace with
    | '"' :: value =>
      some (if value.contains '"' then
        some (value.takeWhile (· ≠ '"'),
          text.take (text.length - (value.dropWhile (· ≠ '"')).length + 1))
      else none)
    | _ => none
  | _ => none

/-- The first occurrence of the key that a value follows; its raw text after the key. -/
def findField (key : List Char) : Option Char → Nat → List Char → Option (List Char × List Char)
  | _, _, [] => none
  | _, pass + 1, c :: rest => findField key (some c) pass rest
  | previous, 0, c :: rest =>
    if key.isPrefixOf (c :: rest) then
      match if isTokenStart previous then readFieldValue ((c :: rest).drop key.length)
        else none with
      | some value => value
      | none => findField key (some c) (key.length - 1) rest
    else findField key (some c) 0 rest

/-- Envelope B: a dependency field `"pkg": "spec"`. -/
def decodeDependencyField (cli : Cli) (text pkg : String) : Option WiringSpec :=
  let key := "\"" ++ pkg ++ "\""
  (findField key.toList none 0 text.toList).map fun (value, raw) =>
    { raw := key ++ String.ofList raw
      pkg := pkg
      token := partitionWiringToken cli (stripSpecProtocol (String.ofList value)) }

/-- `text.includes(part)` -/
def includes (text part : String) : Bool := decide (part.toList <:+: text.toList)

def decodeWiringSpec (cli : Cli) (text pkg : String) : Option WiringSpec :=
  if !includes text pkg then none
  else
    match findPackageSpecs text pkg with
    | (raw, token) :: _ => some ⟨raw, pkg, partitionWiringToken cli token⟩
    | [] =>
      match decodeDependencyField cli text pkg with
      | some spec => some spec
      | none => some ⟨pkg, pkg, ⟨.none, none⟩⟩

def wiringPinString : Option WiringSpec → Option String
  | none => none
  | some spec => if spec.token.kind = .none then none else some (spec.token.value.getD spec.raw)

def isComparableWiringPin (spec : Option WiringSpec) : Bool :=
  spec.any fun spec => spec.token.kind = .version

-- The decision

def comparePinVersions (cli : Cli) (a b : String) : Option Int :=
  if a = "" || b = "" then none
  else if !isStrictSemver a || !isStrictSemver b then none
  else some (cli.compare a b)

def pinWriteWouldLowerOrIsUnknown (cli : Cli) (existing next : String) : Bool :=
  if existing = "" then false
  else
    match comparePinVersions cli existing next with
    | none => true
    | some order => decide (0 < order)

/-- The decision of the guard: write with the pin, leave the bytes, or write nothing. -/
inductive PinWriteDecision where
  | write (pin : Option String)
  | hold (line : String)
  | refuse (line : String)
deriving DecidableEq

def refuseLine (cli : Cli) (pkg entry : String) : String :=
  entry ++ ": REFUSING to write — this CLI cannot read its own version (got \"" ++ cli.version
    ++ "\"), so it cannot pin " ++ pkg ++ " and must not overwrite the entry unpinned; "
    ++ "nothing written. On a fresh home this also declines a legitimate FIRST install "
    ++ "(nothing is created) until the version can be read again."

def aheadLine (cli : Cli) (entry pinned : String) : String :=
  entry ++ ": holding — it is pinned to " ++ pinned ++ ", AHEAD of this CLI " ++ cli.version
    ++ "; never lowering a pin."

def unsupportedLine (entry pinned : String) : String :=
  entry ++ ": holding — it names " ++ pinned ++ " (a range, tag or unsupported spec), which "
    ++ "this CLI cannot prove is not a lowering; bytes preserved."

/-- Decide whether writing the running version over an entry's text would lower it. -/
def decidePinWrite (cli : Cli) (pkg entry : String) (existingText : Option String)
    : PinWriteDecision :=
  if !isResolvedVersion cli.version then .refuse (refuseLine cli pkg entry)
  else
    match decodeWiringSpec cli (existingText.getD "") pkg with
    | none => .write (some cli.version)
    | some spec =>
      match spec.token.kind with
      | .version =>
        let pinned := (wiringPinString (some spec)).getD ""
        if pinWriteWouldLowerOrIsUnknown cli pinned cli.version then
          .hold (aheadLine cli entry pinned)
        else .write (some cli.version)
      | .none => .write (some cli.version)
      | _ => .hold (unsupportedLine entry ((wiringPinString (some spec)).getD "null"))

-- The letters of a strict version

theorem eq_of_cutAt (mark : Char) (text : List Char)
    : text = (cutAt mark text).1
        ++ match (cutAt mark text).2 with
          | none => []
          | some rest => mark :: rest := by
  unfold cutAt
  induction text with
  | nil => rfl
  | cons c rest ih =>
    by_cases here : c = mark
    · simp [here]
    · simpa [here] using ih

theorem mem_of_mem_splitOn {separator c : Char} {text : List Char} (member : c ∈ text)
    : c = separator ∨ ∃ part ∈ text.splitOn separator, c ∈ part := by
  have joined : ∀ parts : List (List Char), c ∈ [separator].intercalate parts →
      c = separator ∨ ∃ part ∈ parts, c ∈ part := by
    intro parts
    induction parts with
    | nil => simp [List.intercalate]
    | cons part rest ih =>
      cases rest with
      | nil => simpa [List.intercalate] using Or.inr
      | cons next more =>
        intro inside
        have cases_of : c ∈ part ∨ c = separator
            ∨ c ∈ [separator].intercalate (next :: more) := by
          simpa [List.intercalate] using inside
        rcases cases_of with here | mark | later
        · exact Or.inr ⟨part, List.mem_cons_self, here⟩
        · exact Or.inl mark
        · exact (ih later).imp_right fun ⟨found, among, holds⟩ =>
            ⟨found, List.mem_cons_of_mem _ among, holds⟩
  rw [← @List.intercalate_splitOn _ text _ _ separator] at member
  exact joined _ member

/-- A letter of a strict version: no space, quote or comma. -/
def isVersionChar (c : Char) : Bool := isIdentifierChar c || c == '.' || c == '+'

variable {text : List Char}

theorem versionChar_of_parts
    (parts : ∀ part ∈ text.splitOn '.', ∀ c ∈ part, isIdentifierChar c = true)
    : ∀ c ∈ text, (isIdentifierChar c || c == '.') = true := by
  intro c member
  rcases @mem_of_mem_splitOn '.' _ _ member with rfl | ⟨part, among, inside⟩
  · simp
  · simp [parts part among c inside]

theorem identifierChar_of_digit {c : Char} (digit : c.isDigit = true)
    : isIdentifierChar c = true := by
  simp [isIdentifierChar, Char.isAlphanum, digit]

private theorem identifierChars_of_numeric {part : List Char}
    (numeric : isNumericIdentifier part = true)
    : part ≠ [] ∧ part.all Char.isDigit = true := by
  simp only [isNumericIdentifier, Bool.and_eq_true, decide_eq_true_eq] at numeric
  exact numeric.1

private theorem parts_of_prerelease {part : List Char}
    (identifier : isPrereleaseIdentifier part = true)
    : isBuildIdentifier part = true := by
  simp only [isPrereleaseIdentifier, Bool.and_eq_true] at identifier
  exact identifier.1

private theorem suffix_of_parts (parts : (text.splitOn '.').all isBuildIdentifier = true)
    : text ≠ [] ∧ ∀ c ∈ text, (isIdentifierChar c || c == '.') = true := by
  simp only [List.all_eq_true, isBuildIdentifier, Bool.and_eq_true, decide_eq_true_eq] at parts
  refine ⟨?_, versionChar_of_parts fun part among => (parts part among).2⟩
  rintro rfl
  exact (parts [] (by simp)).1 rfl

theorem matchesFormVersion_of_strict (strict : matchesStrictSemver text = true)
    : matchesFormVersion text = true := by
  simp only [matchesStrictSemver, matchesFormVersion, Bool.and_eq_true] at strict ⊢
  obtain ⟨⟨⟨-, core⟩, prerelease⟩, build⟩ := strict
  refine ⟨⟨?_, ?_⟩, ?_⟩
  · rw [List.all_eq_true] at core ⊢
    intro part among
    simpa using identifierChars_of_numeric (core part among)
  · cases cut : (cutAt '-' (cutAt '+' text).1).2 with
    | none => rfl
    | some suffix =>
      rw [cut, Option.all_some] at prerelease
      rw [Option.all_some, Bool.and_eq_true, List.all_eq_true, decide_eq_true_eq]
      refine suffix_of_parts ?_
      rw [List.all_eq_true] at prerelease ⊢
      exact fun part among => parts_of_prerelease (prerelease part among)
  · cases cut : (cutAt '+' text).2 with
    | none => rfl
    | some suffix =>
      rw [cut, Option.all_some] at build
      rw [Option.all_some, Bool.and_eq_true, List.all_eq_true, decide_eq_true_eq]
      exact suffix_of_parts build

theorem versionChar_of_form (form : matchesFormVersion text = true)
    : ∀ c ∈ text, isVersionChar c = true := by
  simp only [matchesFormVersion, Bool.and_eq_true] at form
  obtain ⟨⟨core, prerelease⟩, build⟩ := form
  have core_chars : ∀ c ∈ (cutAt '-' (cutAt '+' text).1).1,
      (isIdentifierChar c || c == '.') = true := by
    refine versionChar_of_parts fun part among c inside => ?_
    rw [List.all_eq_true] at core
    have digits := core part among
    rw [Bool.and_eq_true, List.all_eq_true] at digits
    exact identifierChar_of_digit (digits.2 c inside)
  have suffix_chars : ∀ (mark : Char) (suffix : Option (List Char)), isVersionChar mark = true →
      suffix.all (fun text : List Char =>
        decide (text ≠ []) && text.all (fun c => isIdentifierChar c || c == '.')) = true →
      ∀ c ∈ (match suffix with | none => [] | some rest => mark :: rest),
        isVersionChar c = true := by
    intro mark suffix marked fits c member
    cases suffix with
    | none => cases member
    | some rest =>
      rw [Option.all_some, Bool.and_eq_true, List.all_eq_true] at fits
      rcases List.mem_cons.mp member with rfl | inside
      · exact marked
      · rw [isVersionChar, fits.2 c inside]
        rfl
  intro c member
  rw [eq_of_cutAt '+' text, List.mem_append] at member
  rcases member with front | behind
  · rw [eq_of_cutAt '-' (cutAt '+' text).1, List.mem_append] at front
    rcases front with inside | later
    · rw [isVersionChar, core_chars c inside]
      rfl
    · exact suffix_chars '-' _ (by decide) prerelease c later
  · exact suffix_chars '+' _ (by decide) build c behind

theorem head_of_form (form : matchesFormVersion text = true)
    : ∃ c rest, text = c :: rest ∧ c.isDigit = true := by
  simp only [matchesFormVersion, Bool.and_eq_true] at form
  obtain ⟨⟨core, -⟩, -⟩ := form
  rw [List.all_eq_true] at core
  have first_part : ∃ part more, ((cutAt '-' (cutAt '+' text).1).1).splitOn '.' = part :: more := by
    cases parts : ((cutAt '-' (cutAt '+' text).1).1).splitOn '.' with
    | nil => exact absurd parts (by simp)
    | cons part more => exact ⟨part, more, rfl⟩
  obtain ⟨part, more, parts⟩ := first_part
  have digits := core part (by simp [parts])
  rw [Bool.and_eq_true, List.all_eq_true, decide_eq_true_eq] at digits
  obtain ⟨some_digit, digits⟩ := digits
  have joined := @List.intercalate_splitOn _ (cutAt '-' (cutAt '+' text).1).1 _ _ '.'
  rw [parts] at joined
  have whole := eq_of_cutAt '+' text
  rw [eq_of_cutAt '-' (cutAt '+' text).1, ← joined] at whole
  cases part with
  | nil => exact absurd rfl some_digit
  | cons c rest =>
    have digit := digits c List.mem_cons_self
    cases more with
    | nil => exact ⟨c, _, by simpa [List.intercalate] using whole, digit⟩
    | cons next more => exact ⟨c, _, by simpa [List.intercalate] using whole, digit⟩

theorem not_terminator_of_versionChar {c : Char} (letter : isVersionChar c = true)
    : isTokenTerminator c = false := by
  have ascii : ∀ code < 128, isVersionChar (Char.ofNat code) = true →
      isTokenTerminator (Char.ofNat code) = false := by decide
  have small : c.toNat < 128 := by
    simp only [isVersionChar, isIdentifierChar, Char.isAlphanum, Char.isAlpha, Char.isUpper,
      Char.isLower, Char.isDigit, Bool.or_eq_true, Bool.and_eq_true, decide_eq_true_eq,
      UInt32.le_iff_toNat_le, beq_iff_eq, ge_iff_le] at letter
    have code : c.toNat = c.val.toNat := rfl
    have upper : 'Z'.val.toNat = 90 := rfl
    have lower : 'z'.val.toNat = 122 := rfl
    have digit : '9'.val.toNat = 57 := rfl
    rcases letter with ((((⟨-, h⟩ | ⟨-, h⟩) | ⟨-, h⟩) | rfl) | rfl) | rfl
    · omega
    · omega
    · omega
    all_goals decide
  have same := ascii c.toNat small
  rw [Char.ofNat_toNat] at same
  exact same letter

-- What a spec of the installers decodes to

/-- The letters of a token `readSpecToken` reads to its end. -/
def IsToken (text : String) : Prop := ∀ c ∈ text.toList, isTokenTerminator c = false

theorem trim_of_token {text : String} (token : IsToken text) : trim text = text := by
  have spaceless : ∀ c ∈ text.toList, isSpace c = false := by
    intro c member
    have apart := token c member
    simp only [isTokenTerminator, Bool.or_eq_false_iff] at apart
    exact apart.1.1.1.1
  have kept : ∀ letters : List Char, (∀ c ∈ letters, isSpace c = false) →
      letters.dropWhile isSpace = letters := by
    intro letters clear
    cases letters with
    | nil => rfl
    | cons c rest => rw [List.dropWhile_cons_of_neg (by simp [clear c List.mem_cons_self])]
  rw [trim, kept _ spaceless, kept _ (by simpa using spaceless), List.reverse_reverse,
    String.ofList_toList]

variable {version : String}

theorem token_of_form (form : matchesFormVersion version.toList = true)
    : IsToken version :=
  fun c member => not_terminator_of_versionChar (versionChar_of_form form c member)

theorem decodeWiringSpec_pinned (cli : Cli) (token : IsToken version)
    : decodeWiringSpec cli (FLAIR_MCP_PACKAGE ++ "@" ++ version) FLAIR_MCP_PACKAGE
      = some ⟨FLAIR_MCP_PACKAGE ++ "@" ++ version, FLAIR_MCP_PACKAGE,
          partitionWiringToken cli version⟩ := by
  have included : includes (FLAIR_MCP_PACKAGE ++ "@" ++ version) FLAIR_MCP_PACKAGE = true := by
    rw [includes, decide_eq_true_eq, String.toList_append, String.toList_append,
      List.append_assoc]
    exact (List.prefix_append ..).isInfix
  have read : readSpecToken version.toList = version.toList := by
    rw [readSpecToken, List.takeWhile_eq_self_iff]
    intro c member
    simp [token c member]
  have found : ∃ later, findPackageSpecs (FLAIR_MCP_PACKAGE ++ "@" ++ version) FLAIR_MCP_PACKAGE
      = (FLAIR_MCP_PACKAGE ++ "@" ++ version, version) :: later := by
    rw [findPackageSpecs, @String.toList_append (FLAIR_MCP_PACKAGE ++ "@") version]
    generalize needle_eq : (FLAIR_MCP_PACKAGE ++ "@").toList = needle
    cases needle with
    | nil => exact absurd needle_eq (by decide)
    | cons c rest =>
      have starts : (c :: rest).isPrefixOf (c :: (rest ++ version.toList)) = true := by
        rw [List.isPrefixOf_iff_prefix]
        exact List.prefix_append (c :: rest) _
      have dropped : (c :: (rest ++ version.toList)).drop (c :: rest).length
          = version.toList := by
        rw [← List.cons_append, List.drop_left]
      rw [List.cons_append, findTokensAfter, if_pos starts]
      simp only [isTokenStart, ↓reduceIte, dropped, read, List.map_cons, String.ofList_toList]
      exact ⟨_, rfl⟩
  obtain ⟨later, found⟩ := found
  rw [decodeWiringSpec, included, found]
  rfl

theorem decodeWiringSpec_bare (cli : Cli)
    : decodeWiringSpec cli FLAIR_MCP_PACKAGE FLAIR_MCP_PACKAGE
      = some ⟨FLAIR_MCP_PACKAGE, FLAIR_MCP_PACKAGE, ⟨.none, none⟩⟩ := by
  have included : includes FLAIR_MCP_PACKAGE FLAIR_MCP_PACKAGE = true := by
    simp [includes]
  have nothing : findPackageSpecs FLAIR_MCP_PACKAGE FLAIR_MCP_PACKAGE = [] := by decide
  have noField : findField ("\"" ++ FLAIR_MCP_PACKAGE ++ "\"").toList none 0
      FLAIR_MCP_PACKAGE.toList = none := by decide
  rw [decodeWiringSpec, included, nothing, decodeDependencyField, noField]
  rfl

theorem partitionWiringToken_strict (cli : Cli) (strict : matchesStrictSemver version.toList = true)
    : partitionWiringToken cli version = ⟨.version, some version⟩ := by
  have form := matchesFormVersion_of_strict strict
  have trimmed := trim_of_token (token_of_form form)
  obtain ⟨c, rest, letters, digit⟩ := head_of_form form
  have noSource : UNSUPPORTED_SOURCES.any (startsWith version) = false := by
    have heads : ∀ source ∈ UNSUPPORTED_SOURCES,
        (source.toList.head?.any fun first => !first.isDigit) = true := by decide
    rw [List.any_eq_false]
    intro source among starts
    have head := heads source among
    rw [startsWith, List.isPrefixOf_iff_prefix, letters] at starts
    cases opening : source.toList with
    | nil => simp [opening] at head
    | cons first more =>
      rw [opening, List.cons_prefix_cons] at starts
      simp [opening, starts.1, digit] at head
  have noV : startsWithVDigit version = false := by
    unfold startsWithVDigit
    rw [letters]
    split
    · rename_i same
      cases same
      exact absurd digit (by decide)
    · rfl
  have some_text : version ≠ "" := by
    rintro rfl
    cases letters
  unfold partitionWiringToken
  simp only [trimmed, noSource, some_text, noV, isStrictSemver, strict, Bool.false_eq_true,
    ↓reduceIte]

variable {cli : Cli}

theorem value_of_version {rawToken : String}
    (version : (partitionWiringToken cli rawToken).kind = .version)
    : (partitionWiringToken cli rawToken).value = some (trim rawToken)
      ∧ isStrictSemver (trim rawToken) = true ∧ trim rawToken ≠ "" := by
  unfold partitionWiringToken at version ⊢
  simp only at version ⊢
  split at version
  · cases version
  split at version
  · cases version
  split at version
  · cases version
  split at version
  · rename_i noSource some_text noV strict
    simp only [noSource, some_text, noV, strict, Bool.false_eq_true, ↓reduceIte]
    exact ⟨trivial, trivial, some_text⟩
  split at version <;> cases version

def Cli.Strict (cli : Cli) : Prop := matchesStrictSemver cli.version.toList = true

instance (cli : Cli) : Decidable cli.Strict :=
  inferInstanceAs (Decidable (matchesStrictSemver cli.version.toList = true))

theorem Cli.Strict.form (strict : cli.Strict)
    : matchesFormVersion cli.version.toList = true :=
  matchesFormVersion_of_strict strict

theorem resolved_of_form (form : matchesFormVersion cli.version.toList = true)
    : isResolvedVersion cli.version = true := by
  have apart : ∀ text : String, matchesFormVersion text.toList = false → cli.version ≠ text := by
    rintro text unfit same
    rw [same, unfit] at form
    cases form
  simp only [isResolvedVersion, Bool.and_eq_true, decide_eq_true_eq]
  exact ⟨apart "" (by decide), apart UNKNOWN_VERSION (by decide)⟩

theorem isStrictSemver_of_strict (strict : matchesStrictSemver version.toList = true)
    : isStrictSemver version = true := by
  rw [isStrictSemver, trim_of_token (token_of_form (matchesFormVersion_of_strict strict))]
  exact strict

variable {pkg : String}

theorem token_of_decode {text : String} {spec : WiringSpec}
    (decoded : decodeWiringSpec cli text pkg = some spec)
    : spec.token = ⟨.none, none⟩ ∨ ∃ rawToken, spec.token = partitionWiringToken cli rawToken := by
  unfold decodeWiringSpec at decoded
  split at decoded
  · cases decoded
  cases found : findPackageSpecs text pkg with
  | cons first later =>
    simp only [found, Option.some.injEq] at decoded
    exact Or.inr ⟨first.2, by rw [← decoded]⟩
  | nil =>
    cases field : decodeDependencyField cli text pkg with
    | none =>
      simp only [found, field, Option.some.injEq] at decoded
      exact Or.inl (by rw [← decoded])
    | some named =>
      simp only [found, field, Option.some.injEq] at decoded
      obtain ⟨read, -, rfl⟩ := Option.map_eq_some_iff.mp field
      exact Or.inr ⟨stripSpecProtocol (String.ofList read.1), by rw [← decoded]⟩

theorem pin_of_version {text : String} {spec : WiringSpec}
    (decoded : decodeWiringSpec cli text pkg = some spec) (kind : spec.token.kind = .version)
    : ∃ version, wiringPinString (some spec) = some version
      ∧ matchesStrictSemver version.toList = true := by
  rcases token_of_decode decoded with none_token | ⟨rawToken, token⟩
  · rw [none_token] at kind
    cases kind
  rw [token] at kind
  obtain ⟨value, strict, -⟩ := value_of_version kind
  refine ⟨trim rawToken, ?_, ?_⟩
  · rw [wiringPinString, token, kind, if_neg (by simp), value]
    rfl
  · rwa [isStrictSemver, trim_trim] at strict

-- What the guard lets pass

theorem decidePinWrite_write {entry : String} {text pin : Option String}
    (written : decidePinWrite cli pkg entry text = .write pin)
    : isResolvedVersion cli.version = true ∧ pin = some cli.version
      ∧ ∀ spec, decodeWiringSpec cli (text.getD "") pkg = some spec →
        spec.token.kind = .none
        ∨ spec.token.kind = .version ∧ pinWriteWouldLowerOrIsUnknown cli
            ((wiringPinString (some spec)).getD "") cli.version = false := by
  unfold decidePinWrite at written
  split at written
  · cases written
  rename_i resolved
  refine ⟨by simpa using resolved, ?_⟩
  split at written
  · rename_i absent
    exact ⟨(PinWriteDecision.write.inj written).symm, by simp [absent]⟩
  rename_i spec decoded
  rw [decoded]
  simp only [Option.some.injEq, forall_eq']
  split at written
  · rename_i kind
    simp only at written
    split at written
    · cases written
    · rename_i notLowered
      exact ⟨(PinWriteDecision.write.inj written).symm, Or.inr ⟨kind, by simpa using notLowered⟩⟩
  · rename_i kind
    exact ⟨(PinWriteDecision.write.inj written).symm, Or.inl kind⟩
  · cases written

theorem running_notLowered (strict : cli.Strict)
    (reflexive : ∀ version, cli.compare version version = 0)
    : pinWriteWouldLowerOrIsUnknown cli cli.version cli.version = false := by
  have same := isStrictSemver_of_strict strict
  unfold pinWriteWouldLowerOrIsUnknown comparePinVersions
  by_cases empty : cli.version = ""
  · simp [empty]
  · simp [empty, same, reflexive]

end Flair.Hooks
