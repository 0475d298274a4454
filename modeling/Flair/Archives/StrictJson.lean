import Flair.Foundations.InsertionMap
import Flair.Foundations.Values
import Mathlib.Data.List.TakeWhile

/-! The strict JSON reader of restore archives, beside the JSON grammar. Texts are lists of
UTF-16 code units. Follows the strict JSON part of `src/lib/restore-archive.ts`.
-/

namespace Flair.Archives

open Dynamic (bind_eq_ok)

abbrev Units := List Nat

def ascii (text : String) : Units := text.toList.map Char.toNat

/-- A value as `JSON.parse` returns it; an object's own members in the order they were
defined. The numbers are those of the language.
-/
inductive Json (ν : Type) where
  | null
  | bool (flag : Bool)
  | num (number : ν)
  | str (units : Units)
  | arr (items : List (Json ν))
  | obj (members : List (Units × Json ν))

inductive RefusalCode where
  | invalidJson | duplicateKey
deriving DecidableEq

/-- What a refusal says: a fixed text, or `duplicate object key` and the key as JSON. -/
inductive Reason where
  | text (message : String)
  | duplicate (key : Units)

/-- A refusal; its index is told by the length of what was left to read. -/
structure Refusal where
  code : RefusalCode
  reason : Reason
  location : Units
  left : Nat

def refuse {α : Type} (message : String) (location : Units) (left : Units) : Except Refusal α :=
  .error ⟨.invalidJson, .text message, location, left.length⟩

-- Characters

def quote : Nat := 0x22
def backslash : Nat := 0x5c
def comma : Nat := 0x2c
def colon : Nat := 0x3a
def lbrace : Nat := 0x7b
def rbrace : Nat := 0x7d
def lbracket : Nat := 0x5b
def rbracket : Nat := 0x5d

def isBlank (c : Nat) : Bool := c = 0x20 || c = 0x0a || c = 0x0d || c = 0x09

def isDigit (c : Nat) : Bool := decide (0x30 ≤ c ∧ c ≤ 0x39)

def hexValue (c : Nat) : Option Nat :=
  if 0x30 ≤ c ∧ c ≤ 0x39 then some (c - 0x30)
  else if 0x61 ≤ c ∧ c ≤ 0x66 then some (c - 0x61 + 10)
  else if 0x41 ≤ c ∧ c ≤ 0x46 then some (c - 0x41 + 10)
  else none

def hexUnit (a b c d : Nat) : Option Nat := do
  let a ← hexValue a
  let b ← hexValue b
  let c ← hexValue c
  let d ← hexValue d
  return ((a * 16 + b) * 16 + c) * 16 + d

def simpleEscape (c : Nat) : Option Nat :=
  [(0x22, 0x22), (0x5c, 0x5c), (0x2f, 0x2f), (0x62, 0x08), (0x66, 0x0c), (0x6e, 0x0a),
    (0x72, 0x0d), (0x74, 0x09)].lookup c

def skipWhitespace (text : Units) : Units := text.dropWhile isBlank

def escapePointer (segment : Units) : Units :=
  segment.flatMap fun c =>
    if c = 0x7e then ascii "~0" else if c = 0x2f then ascii "~1" else [c]

-- Tokens

def readString (location : Units) : Units → Except Refusal (Units × Units)
  | [] => refuse "unterminated string" location []
  | c :: rest =>
    if c = quote then .ok ([], rest)
    else if c = backslash then
      match rest with
      | 0x75 :: h₁ :: h₂ :: h₃ :: h₄ :: after =>
        match hexUnit h₁ h₂ h₃ h₄ with
        | none => refuse "invalid \\u escape" location (c :: rest)
        | some unit => (readString location after).map fun read => (unit :: read.1, read.2)
      | 0x75 :: _ => refuse "invalid \\u escape" location (c :: rest)
      | escape :: after =>
        match simpleEscape escape with
        | none => refuse "invalid escape sequence" location (c :: rest)
        | some unit => (readString location after).map fun read => (unit :: read.1, read.2)
      | [] => refuse "invalid escape sequence" location (c :: rest)
    else if c < 0x20 then
      refuse "unescaped control character in a string" location (c :: rest)
    else (readString location rest).map fun read => (c :: read.1, read.2)

def readDigits (text : Units) : Units × Units := (text.takeWhile isDigit, text.dropWhile isDigit)

def readOne (wanted : Nat → Bool) : Units → Units × Units
  | [] => ([], [])
  | c :: rest => if wanted c then ([c], rest) else ([], c :: rest)

def isSign (c : Nat) : Bool := c = 0x2b || c = 0x2d

def isPoint (c : Nat) : Bool := c = 0x2e

def isExponent (c : Nat) : Bool := c = 0x65 || c = 0x45

def readPart (isMark isSign : Nat → Bool) (text : Units) : Units × Units :=
  let mark := readOne isMark text
  let sign := readOne isSign mark.2
  let digits := readDigits sign.2
  if mark.1 = [] ∨ digits.1 = [] then ([], text) else (mark.1 ++ sign.1 ++ digits.1, digits.2)

/-- The digits before a number's point: a zero, or digits that do not begin with one. -/
def readWhole (text : Units) : Units × Units :=
  let zero := readOne (fun c => c = 0x30) text
  if zero.1 = [] then readDigits text else zero

/-- The token `NUMBER_TOKEN` matches at the start of a text, with what follows it. -/
def readNumber (text : Units) : Option (Units × Units) :=
  let minus := readOne (fun c => c = 0x2d) text
  let whole := readWhole minus.2
  let fraction := readPart isPoint (fun _ => false) whole.2
  let exponent := readPart isExponent isSign fraction.2
  if whole.1 = [] then none
  else some (minus.1 ++ whole.1 ++ fraction.1 ++ exponent.1, exponent.2)

-- The parser

/-- A container that is being read. An object's frame has the keys it has seen. -/
inductive Frame (ν : Type) where
  | array (items : List (Json ν)) (pointer : Units)
  | object (members : List (Units × Json ν)) (keys : List Units) (pointer key : Units)

variable {ν : Type}

def Frame.attach (value : Json ν) : Frame ν → Frame ν
  | array items pointer => array (items ++ [value]) pointer
  | object members keys pointer key =>
    object (InsertionMap.set members key value) keys pointer key

def Frame.value : Frame ν → Json ν
  | array items _ => .arr items
  | object members _ _ _ => .obj members

def Frame.closing : Frame ν → Nat
  | array _ _ => rbracket
  | object _ _ _ _ => rbrace

/-- The pointer of the value about to be read inside the innermost container. -/
def childPointer : List (Frame ν) → Units
  | [] => []
  | .array items pointer :: _ => pointer ++ 0x2f :: escapePointer (ascii (toString items.length))
  | .object _ _ pointer key :: _ => pointer ++ 0x2f :: escapePointer key

/-- The parser between two values: about to read one, or with one to attach. -/
inductive Machine (ν : Type) where
  | reading (stack : List (Frame ν)) (rest : Units)
  | attaching (value : Json ν) (stack : List (Frame ν)) (rest : Units)

def Machine.rest : Machine ν → Units
  | reading _ rest => rest
  | attaching _ _ rest => rest

/-- `readKey`: a key and the colon after it, then the member's value is read. -/
def readKey (members : List (Units × Json ν)) (keys : List Units) (pointer : Units)
    (stack : List (Frame ν)) (text : Units)
    : Except Refusal (Machine ν) :=
  match text with
  | [] => refuse "expected a string object key" pointer text
  | c :: rest =>
    if c ≠ quote then refuse "expected a string object key" pointer text
    else (readString pointer rest).bind fun read =>
      let location := pointer ++ 0x2f :: escapePointer read.1
      if read.1 ∈ keys then
        .error ⟨.duplicateKey, .duplicate read.1, location, text.length⟩
      else
        match skipWhitespace read.2 with
        | [] => refuse "expected ':' after an object key" location []
        | d :: after =>
          if d = colon then
            .ok (.reading (.object members (keys ++ [read.1]) pointer read.1 :: stack) after)
          else refuse "expected ':' after an object key" location (d :: after)

/-- `readScalar`; `toNumber` is the conversion of a number token. -/
def readScalar (toNumber : Units → ν) (total : Nat) (stack : List (Frame ν)) (text : Units)
    : Except Refusal (Json ν × Units) :=
  let location := childPointer stack
  match text with
  | [] => refuse "unexpected end of input" location text
  | c :: rest =>
    if c = quote then (readString location rest).map fun read => (.str read.1, read.2)
    else if (ascii "true").isPrefixOf text then .ok (.bool true, text.drop 4)
    else if (ascii "false").isPrefixOf text then .ok (.bool false, text.drop 5)
    else if (ascii "null").isPrefixOf text then .ok (.null, text.drop 4)
    else if c = 0x2d || isDigit c then
      match readNumber text with
      | none => refuse "invalid number" location text
      | some (token, rest) => .ok (.num (toNumber token), rest)
    else if text.length = total ∧ c = 0xfeff then
      refuse "the document begins with a byte order mark" location text
    else refuse "unexpected character" location text

/-- Read one value, or open a container and continue with its first member. -/
def readValue (toNumber : Units → ν) (total : Nat) (stack : List (Frame ν)) (text : Units)
    : Except Refusal (Machine ν) :=
  let text := skipWhitespace text
  let inside := skipWhitespace text.tail
  if text.head? = some lbrace then
    if inside.head? = some rbrace then .ok (.attaching (.obj []) stack inside.tail)
    else readKey [] [] (childPointer stack) stack inside
  else if text.head? = some lbracket then
    if inside.head? = some rbracket then .ok (.attaching (.arr []) stack inside.tail)
    else .ok (.reading (.array [] (childPointer stack) :: stack) inside)
  else
    (readScalar toNumber total stack text).map fun read => .attaching read.1 stack read.2

def attachValue (value : Json ν) (stack : List (Frame ν)) (text : Units)
    : Except Refusal (Machine ν ⊕ Json ν) :=
  let text := skipWhitespace text
  match stack with
  | [] =>
    if text = [] then .ok (.inr value)
    else refuse "unexpected data after the JSON document" [] text
  | frame :: below =>
    let frame := frame.attach value
    if text.head? = some comma then
      match frame with
      | .array items pointer => .ok (.inl (.reading (.array items pointer :: below) text.tail))
      | .object members keys pointer _ =>
        (readKey members keys pointer below (skipWhitespace text.tail)).map .inl
    else if text.head? = some frame.closing then
      .ok (.inl (.attaching frame.value below text.tail))
    else
      match frame with
      | .array _ pointer => refuse "expected ',' or ']' after an array element" pointer text
      | .object _ _ pointer _ =>
        refuse "expected ',' or '\x7d' after an object member" pointer text

def step (toNumber : Units → ν) (total : Nat) : Machine ν → Except Refusal (Machine ν ⊕ Json ν)
  | .reading stack rest => (readValue toNumber total stack rest).map .inl
  | .attaching value stack rest => attachValue value stack rest

-- The JSON grammar

/-- A text begins with the rest of a string after its opening quote, and goes on with
another.
-/
inductive Chars : Units → Units → Units → Prop where
  | close (rest : Units) : Chars (quote :: rest) [] rest
  | plain {c : Nat} {text units rest : Units} (notQuote : c ≠ quote) (notEscape : c ≠ backslash)
      (notControl : 0x20 ≤ c) (more : Chars text units rest)
      : Chars (c :: text) (c :: units) rest
  | simple {letter unit : Nat} {text units rest : Units}
      (escape : simpleEscape letter = some unit) (more : Chars text units rest)
      : Chars (backslash :: letter :: text) (unit :: units) rest
  | unicode {h₁ h₂ h₃ h₄ unit : Nat} {text units rest : Units}
      (escape : hexUnit h₁ h₂ h₃ h₄ = some unit) (more : Chars text units rest)
      : Chars (backslash :: 0x75 :: h₁ :: h₂ :: h₃ :: h₄ :: text) (unit :: units) rest

variable {text units : Units}

theorem Chars.length {rest : Units} (h : Chars text units rest)
    : rest.length < text.length := by
  induction h with
  | close => exact Nat.lt_succ_self _
  | plain _ _ _ _ ih => exact Nat.lt_succ_of_lt ih
  | simple _ _ ih =>
    simp only [List.length_cons]
    omega
  | unicode _ _ ih =>
    simp only [List.length_cons]
    omega

theorem map_eq_ok {α β : Type} {x : Except Refusal α} {f : α → β} {b : β}
    (h : x.map f = .ok b)
    : ∃ a, x = .ok a ∧ f a = b := by
  cases x with
  | error _ => cases h
  | ok a => exact ⟨a, rfl, Except.ok.inj h⟩

theorem chars_of_readString {location rest : Units}
    (h : readString location text = .ok (units, rest))
    : Chars text units rest := by
  fun_induction readString location text generalizing units with
  | case2 =>
    cases h
    exact .close _
  | case4 _ _ _ _ _ _ found _ ih | case7 _ _ _ _ _ found _ ih =>
    obtain ⟨read, done, same⟩ := map_eq_ok h
    cases same
    first | exact .unicode found (ih done) | exact .simple found (ih done)
  | case10 _ _ notQuote notEscape notControl ih =>
    obtain ⟨read, done, same⟩ := map_eq_ok h
    cases same
    exact .plain notQuote notEscape (Nat.not_lt.mp notControl) (ih done)
  | _ => cases h

theorem readString_of_chars {rest : Units} (h : Chars text units rest) (location : Units)
    : readString location text = .ok (units, rest) := by
  induction h with
  | close rest => rw [readString.eq_def]; rfl
  | plain notQuote notEscape notControl _ ih =>
    rw [readString.eq_def]
    simp only [if_neg notQuote, if_neg notEscape, if_neg (Nat.not_lt.mpr notControl), ih]
    rfl
  | @simple letter _ _ _ _ escape _ ih =>
    have other : letter ≠ 0x75 := by
      rintro rfl
      cases escape
    rw [readString.eq_def]
    dsimp only
    rw [if_neg (by decide), if_pos rfl]
    split
    · rename_i same
      exact absurd (List.cons.inj same).1 other
    · rename_i same
      exact absurd (List.cons.inj same).1 other
    · rename_i same
      obtain ⟨rfl, rfl⟩ := List.cons.inj same
      simp only [escape, ih]
      rfl
    · rename_i same
      cases same
  | unicode escape _ ih =>
    rw [readString.eq_def]
    simp only [escape, ih]
    rfl

theorem skipWhitespace_length (text : Units) : (skipWhitespace text).length ≤ text.length :=
  (List.dropWhile_sublist _).length_le

def Stops (run : Nat → Bool) (text : Units) : Prop := ∀ c, text.head? = some c → run c = false

theorem dropWhile_append_stops {run : Nat → Bool} {front rest : Units}
    (all : ∀ c ∈ front, run c = true) (stops : Stops run rest)
    : (front ++ rest).takeWhile run = front ∧ (front ++ rest).dropWhile run = rest := by
  rw [List.takeWhile_append_of_pos all, List.dropWhile_append_of_pos all]
  cases rest with
  | nil => simp
  | cons c rest =>
    have stopped := stops c rfl
    rw [List.takeWhile_cons_of_neg (by simp [stopped]),
      List.dropWhile_cons_of_neg (by simp [stopped])]
    simp

def Blanks (text rest : Units) : Prop := ∃ blanks, (∀ c ∈ blanks, isBlank c = true) ∧ text = blanks ++ rest

theorem Blanks.skip {rest : Units} (h : Blanks text rest) (stops : Stops isBlank rest)
    : skipWhitespace text = rest := by
  obtain ⟨blanks, all, rfl⟩ := h
  exact (dropWhile_append_stops all stops).2

theorem Blanks.skip_eq {rest : Units} (h : Blanks text rest)
    : skipWhitespace text = skipWhitespace rest := by
  obtain ⟨blanks, all, rfl⟩ := h
  exact List.dropWhile_append_of_pos all

theorem Blanks.refl (text : Units) : Blanks text text := ⟨[], by simp, rfl⟩

theorem blanks_skip (text : Units) : Blanks text (skipWhitespace text) :=
  ⟨text.takeWhile isBlank, fun _ member => List.mem_takeWhile_imp member,
    (List.takeWhile_append_dropWhile).symm⟩

-- Numbers

def IsDigits (digits : Units) : Prop := digits ≠ [] ∧ ∀ c ∈ digits, isDigit c = true

def IsPart (isMark isSign : Nat → Bool) (part : Units) : Prop :=
  part = [] ∨ ∃ mark sign digits, part = mark :: sign ++ digits ∧ isMark mark = true
    ∧ (sign = [] ∨ ∃ c, sign = [c] ∧ isSign c = true) ∧ IsDigits digits

def IsWhole (whole : Units) : Prop :=
  whole = [0x30] ∨ IsDigits whole ∧ whole.head? ≠ some 0x30

def IsNumber (token : Units) : Prop :=
  ∃ minus whole fraction exponent, token = minus ++ whole ++ fraction ++ exponent
    ∧ (minus = [] ∨ minus = [0x2d]) ∧ IsWhole whole
    ∧ IsPart isPoint (fun _ => false) fraction ∧ IsPart isExponent isSign exponent

variable {token : Units}

theorem IsNumber.starts (h : IsNumber token)
    : ∃ c rest, token = c :: rest ∧ (c = 0x2d ∨ isDigit c = true) := by
  obtain ⟨minus, whole, fraction, exponent, rfl, isMinus, isWhole, -, -⟩ := h
  rcases isMinus with rfl | rfl
  · rcases isWhole with rfl | ⟨⟨some, all⟩, -⟩
    · exact ⟨_, _, rfl, .inr rfl⟩
    · cases whole with
      | nil => exact absurd rfl some
      | cons d others => exact ⟨d, _, rfl, .inr (all d List.mem_cons_self)⟩
  · exact ⟨_, _, rfl, .inl rfl⟩

variable {c : Nat}

theorem IsNumber.head {rest : Units} (h : IsNumber token) (first : (token ++ rest).head? = some c)
    : c = 0x2d ∨ 0x30 ≤ c ∧ c ≤ 0x39 := by
  obtain ⟨d, others, rfl, starts⟩ := h.starts
  obtain rfl := Option.some.inj first
  exact starts.imp_right of_decide_eq_true

def Follows (rest : Units) : Prop :=
  ∀ c, rest.head? = some c → isBlank c = true ∨ c = comma ∨ c = rbracket ∨ c = rbrace

theorem readOne_append (wanted : Nat → Bool) (text : Units)
    : text = (readOne wanted text).1 ++ (readOne wanted text).2
      ∧ ((readOne wanted text).1 = [] ∨ ∃ c, (readOne wanted text).1 = [c] ∧ wanted c = true) := by
  cases text with
  | nil => exact ⟨rfl, .inl rfl⟩
  | cons c rest =>
    by_cases found : wanted c = true
    · rw [readOne, if_pos found]
      exact ⟨rfl, .inr ⟨c, rfl, found⟩⟩
    · rw [readOne, if_neg found]
      exact ⟨rfl, .inl rfl⟩

theorem readOne_stops {wanted : Nat → Bool} (h : Stops wanted text)
    : readOne wanted text = ([], text) := by
  cases text with
  | nil => rfl
  | cons c rest => rw [readOne, if_neg (by simp [h c rfl])]

theorem readOne_cons {wanted : Nat → Bool} (h : wanted c = true) (rest : Units)
    : readOne wanted (c :: rest) = ([c], rest) := if_pos h

theorem readPart_append (isMark isSign : Nat → Bool) (text : Units)
    : text = (readPart isMark isSign text).1 ++ (readPart isMark isSign text).2
      ∧ IsPart isMark isSign (readPart isMark isSign text).1 := by
  obtain ⟨marked, mark⟩ := readOne_append isMark text
  obtain ⟨signed, sign⟩ := readOne_append isSign (readOne isMark text).2
  unfold readPart readDigits
  dsimp only
  split
  · exact ⟨rfl, .inl rfl⟩
  rename_i present
  rw [not_or] at present
  refine ⟨?_, .inr ?_⟩
  · rw [List.append_assoc, List.append_assoc, List.takeWhile_append_dropWhile, ← signed]
    exact marked
  · obtain ⟨c, one, isMark⟩ := mark.resolve_left present.1
    rw [one]
    exact ⟨c, _, _, rfl, isMark, sign, present.2, fun _ member => List.mem_takeWhile_imp member⟩

theorem readPart_of_isPart {isMark isSign : Nat → Bool} {part rest : Units}
    (h : IsPart isMark isSign part) (noSign : ∀ c, isDigit c = true → isSign c = false)
    (noMark : Stops isMark rest) (noDigit : Stops isDigit rest)
    : readPart isMark isSign (part ++ rest) = (part, rest) := by
  rcases h with rfl | ⟨mark, sign, digits, rfl, isMark, signed, some, all⟩
  · unfold readPart
    dsimp only
    rw [List.nil_append, readOne_stops noMark, if_pos (.inl rfl)]
  · have run := dropWhile_append_stops all noDigit
    have signs : readOne isSign (sign ++ (digits ++ rest)) = (sign, digits ++ rest) := by
      rcases signed with rfl | ⟨c, rfl, isSign⟩
      · refine readOne_stops ?_
        intro c first
        cases digits with
        | nil => exact absurd rfl some
        | cons d others =>
          obtain rfl := Option.some.inj first
          exact noSign d (all d List.mem_cons_self)
      · exact readOne_cons isSign _
    unfold readPart readDigits
    dsimp only
    rw [List.cons_append, List.cons_append, List.append_assoc, readOne_cons isMark]
    dsimp only
    rw [signs]
    dsimp only
    rw [run.1, run.2, if_neg (by simp [some])]
    rfl

theorem readWhole_append (text : Units)
    : text = (readWhole text).1 ++ (readWhole text).2
      ∧ ((readWhole text).1 = [] ∨ IsWhole (readWhole text).1) := by
  unfold readWhole
  cases text with
  | nil => exact ⟨rfl, .inl rfl⟩
  | cons c rest =>
    by_cases zero : decide (c = 0x30) = true
    · rw [readOne_cons zero]
      rw [decide_eq_true_eq] at zero
      subst zero
      exact ⟨rfl, .inr (.inl rfl)⟩
    · dsimp only
      rw [readOne, if_neg zero, if_pos rfl]
      refine ⟨List.takeWhile_append_dropWhile.symm, ?_⟩
      by_cases digit : isDigit c = true
      · refine .inr (.inr ⟨⟨?_, fun _ member => List.mem_takeWhile_imp member⟩, ?_⟩)
        · simp [readDigits, digit]
        · simpa [readDigits, digit] using zero
      · exact .inl (List.takeWhile_cons_of_neg digit)

theorem readWhole_of_isWhole {whole rest : Units} (h : IsWhole whole)
    (stops : Stops isDigit rest)
    : readWhole (whole ++ rest) = (whole, rest) := by
  unfold readWhole
  dsimp only
  rcases h with rfl | ⟨⟨some, all⟩, first⟩
  · rfl
  rw [readOne_stops, if_pos rfl]
  · have run := dropWhile_append_stops all stops
    exact Prod.ext run.1 run.2
  intro c head
  cases whole with
  | nil => exact absurd rfl some
  | cons d others =>
    obtain rfl := Option.some.inj head
    simpa using first

theorem isNumber_of_readNumber {rest : Units} (h : readNumber text = some (token, rest))
    : IsNumber token ∧ text = token ++ rest := by
  unfold readNumber at h
  dsimp only at h
  obtain ⟨front, minus⟩ := readOne_append (fun c => c = 0x2d) text
  generalize readOne (fun c => c = 0x2d) text = first at front minus h
  obtain ⟨wholes, whole⟩ := readWhole_append first.2
  generalize readWhole first.2 = read at wholes whole h
  obtain ⟨fractions, fraction⟩ := readPart_append isPoint (fun _ => false) read.2
  generalize readPart isPoint (fun _ => false) read.2 = part at fractions fraction h
  obtain ⟨exponents, exponent⟩ := readPart_append isExponent isSign part.2
  split at h
  · cases h
  rename_i some
  cases h
  refine ⟨⟨_, _, _, _, rfl, minus.imp_right ?_, whole.resolve_left some, fraction, exponent⟩,
    ?_⟩
  · rintro ⟨c, one, isMinus⟩
    rw [one, of_decide_eq_true isMinus]
  · rw [List.append_assoc, List.append_assoc, List.append_assoc, ← exponents, ← fractions,
      ← wholes]
    exact front

theorem readNumber_of_isNumber {rest : Units} (h : IsNumber token) (follows : Follows rest)
    : readNumber (token ++ rest) = some (token, rest) := by
  obtain ⟨minus, whole, fraction, exponent, rfl, isMinus, isWhole, isFraction, isExp⟩ := h
  have afterExponent : Stops isDigit rest ∧ Stops isExponent rest ∧ Stops isPoint rest := by
    refine ⟨?_, ?_, ?_⟩ <;>
    · intro c first
      rcases follows c first with blank | rfl | rfl | rfl
      · simp only [isBlank, Bool.or_eq_true, decide_eq_true_eq] at blank
        rcases blank with ((rfl | rfl) | rfl) | rfl <;> rfl
      all_goals rfl
  have signless : ∀ c, isDigit c = true → isSign c = false := by
    intro c digit
    have range := of_decide_eq_true digit
    simp only [isSign, Bool.or_eq_false_iff, decide_eq_false_iff_not]
    omega
  have exp := readPart_of_isPart isExp signless afterExponent.2.1 afterExponent.1
  have afterFraction : Stops isDigit (exponent ++ rest) ∧ Stops isPoint (exponent ++ rest) := by
    rcases isExp with rfl | ⟨mark, sign, digits, rfl, isMark, -⟩
    · exact ⟨afterExponent.1, afterExponent.2.2⟩
    simp only [isExponent, Bool.or_eq_true, decide_eq_true_eq] at isMark
    refine ⟨?_, ?_⟩ <;>
    · intro c first
      obtain rfl := Option.some.inj first
      rcases isMark with rfl | rfl <;> rfl
  have frac := readPart_of_isPart isFraction (fun _ _ => rfl) afterFraction.2 afterFraction.1
  have afterWhole : Stops isDigit (fraction ++ (exponent ++ rest)) := by
    rcases isFraction with rfl | ⟨mark, sign, digits, rfl, isMark, -⟩
    · exact afterFraction.1
    intro c first
    obtain rfl := Option.some.inj first
    rw [of_decide_eq_true isMark]
    rfl
  have front := readWhole_of_isWhole isWhole afterWhole
  have unsigned : whole ≠ []
      ∧ Stops (fun c => c = 0x2d) (whole ++ (fraction ++ (exponent ++ rest))) := by
    rcases isWhole with rfl | ⟨⟨some, all⟩, -⟩
    · exact ⟨by simp, by simp [Stops]⟩
    refine ⟨some, ?_⟩
    intro c head
    cases whole with
    | nil => exact absurd rfl some
    | cons d others =>
      obtain rfl := Option.some.inj head
      have digit := of_decide_eq_true (all d List.mem_cons_self)
      rw [decide_eq_false_iff_not]
      omega
  have first : readOne (fun c => c = 0x2d) (minus ++ (whole ++ (fraction ++ (exponent ++ rest))))
      = (minus, whole ++ (fraction ++ (exponent ++ rest))) := by
    rcases isMinus with rfl | rfl
    · exact readOne_stops unsigned.2
    · exact readOne_cons rfl _
  unfold readNumber
  dsimp only
  simp only [List.append_assoc, first, front, frac, exp, if_neg unsigned.1]

-- Values

/-- What a phrase of the grammar stands for: a value, the elements of an array from one on, or
the members of an object from one on.
-/
inductive Node (ν : Type) where
  | value (value : Json ν)
  | elements (items : List (Json ν))
  | members (members : List (Units × Json ν))

/-- The object `JSON.parse` builds of members: each is defined in turn. -/
def define (members : List (Units × Json ν)) : List (Units × Json ν) :=
  members.foldl (fun object member => InsertionMap.set object member.1 member.2) []

/-- The JSON grammar, with the values `JSON.parse` returns: a text begins with a phrase and
goes on with another text. The flag says that no object in the phrase has two members of one
key.
-/
inductive Reads (toNumber : Units → ν) : Units → Node ν → Bool → Units → Prop where
  | null (rest : Units) : Reads toNumber (ascii "null" ++ rest) (.value .null) true rest
  | yes (rest : Units) : Reads toNumber (ascii "true" ++ rest) (.value (.bool true)) true rest
  | no (rest : Units) : Reads toNumber (ascii "false" ++ rest) (.value (.bool false)) true rest
  | number {token : Units} (rest : Units) (isNumber : IsNumber token)
      : Reads toNumber (token ++ rest) (.value (.num (toNumber token))) true rest
  | string {text units rest : Units} (chars : Chars text units rest)
      : Reads toNumber (quote :: text) (.value (.str units)) true rest
  | noElements {text rest : Units} (blanks : Blanks text (rbracket :: rest))
      : Reads toNumber (lbracket :: text) (.value (.arr [])) true rest
  | array {text rest : Units} {items : List (Json ν)} {unique : Bool}
      (elements : Reads toNumber text (.elements items) unique rest)
      : Reads toNumber (lbracket :: text) (.value (.arr items)) unique rest
  | noMembers {text rest : Units} (blanks : Blanks text (rbrace :: rest))
      : Reads toNumber (lbrace :: text) (.value (.obj [])) true rest
  | object {text rest : Units} {fields : List (Units × Json ν)} {unique : Bool}
      (members : Reads toNumber text (.members fields) unique rest)
      : Reads toNumber (lbrace :: text) (.value (.obj (define fields)))
          (unique && decide (fields.map Prod.fst).Nodup) rest
  | lastElement {text a b rest : Units} {value : Json ν} {unique : Bool}
      (before : Blanks text a) (element : Reads toNumber a (.value value) unique b)
      (after : Blanks b (rbracket :: rest))
      : Reads toNumber text (.elements [value]) unique rest
  | element {text a b c rest : Units} {value : Json ν} {items : List (Json ν)}
      {unique others : Bool} (before : Blanks text a)
      (element : Reads toNumber a (.value value) unique b) (after : Blanks b (comma :: c))
      (more : Reads toNumber c (.elements items) others rest)
      : Reads toNumber text (.elements (value :: items)) (unique && others) rest
  | lastMember {text a b c d e key rest : Units} {value : Json ν} {unique : Bool}
      (before : Blanks text (quote :: a)) (chars : Chars a key b) (mark : Blanks b (colon :: c))
      (inner : Blanks c d) (member : Reads toNumber d (.value value) unique e)
      (after : Blanks e (rbrace :: rest))
      : Reads toNumber text (.members [(key, value)]) unique rest
  | member {text a b c d e f key rest : Units} {value : Json ν}
      {fields : List (Units × Json ν)} {unique others : Bool}
      (before : Blanks text (quote :: a)) (chars : Chars a key b) (mark : Blanks b (colon :: c))
      (inner : Blanks c d) (member : Reads toNumber d (.value value) unique e)
      (after : Blanks e (comma :: f)) (more : Reads toNumber f (.members fields) others rest)
      : Reads toNumber text (.members ((key, value) :: fields)) (unique && others) rest

/-- `JSON.parse` returns this value of a text, which has an object with two members of one key
just when the flag is false.
-/
def JsonParses (toNumber : Units → ν) (text : Units) (value : Json ν) (unique : Bool) : Prop :=
  ∃ inner rest, Blanks text inner ∧ Reads toNumber inner (.value value) unique rest
    ∧ Blanks rest []

-- Runs of the parser

variable {toNumber : Units → ν} {total : Nat}

theorem Blanks.length {rest : Units} (h : Blanks text rest) : rest.length ≤ text.length := by
  obtain ⟨blanks, -, rfl⟩ := h
  rw [List.length_append]
  omega

variable {unique : Bool}

theorem Reads.length {rest : Units} {node : Node ν} (h : Reads toNumber text node unique rest)
    : rest.length < text.length := by
  induction h with
  | null | yes | no =>
    rw [List.length_append]
    exact Nat.lt_add_of_pos_left (by decide)
  | number rest isNumber =>
    obtain ⟨c, others, rfl, -⟩ := isNumber.starts
    rw [List.length_append]
    exact Nat.lt_add_of_pos_left (Nat.succ_pos _)
  | string chars => exact Nat.lt_succ_of_lt chars.length
  | noElements blanks | noMembers blanks =>
    have fewer := blanks.length
    simp only [List.length_cons] at fewer ⊢
    omega
  | array _ ih | object _ ih => exact Nat.lt_succ_of_lt ih
  | lastElement before _ after ih =>
    have first := before.length
    have last := after.length
    rw [List.length_cons] at last
    omega
  | element before _ after _ ih others =>
    have first := before.length
    have last := after.length
    rw [List.length_cons] at last
    omega
  | lastMember before chars mark inner _ after | member before chars mark inner _ after =>
    have first := before.length
    have key := chars.length
    have middle := mark.length
    have space := inner.length
    have last := after.length
    simp only [List.length_cons] at first middle last
    omega

variable {members : List (Units × Json ν)} {keys : List Units} {pointer : Units}
  {stack : List (Frame ν)} {machine : Machine ν}

theorem readKey_ok (h : readKey members keys pointer stack text = .ok machine)
    : ∃ a key b c, text = quote :: a ∧ Chars a key b ∧ key ∉ keys ∧ Blanks b (colon :: c)
      ∧ machine = .reading (.object members (keys ++ [key]) pointer key :: stack) c := by
  unfold readKey at h
  split at h
  · cases h
  rename_i first rest
  split at h
  · cases h
  rename_i isQuote
  rw [not_not] at isQuote
  subst isQuote
  cases read : readString pointer rest with
  | error _ =>
    rw [read] at h
    cases h
  | ok result =>
    rw [read] at h
    dsimp only [Except.bind] at h
    split at h
    · cases h
    rename_i unseen
    have space := blanks_skip result.2
    split at h
    · cases h
    rename_i d after more
    split at h
    · rename_i isColon
      cases h
      rw [more, isColon] at space
      exact ⟨rest, result.1, result.2, after, rfl, chars_of_readString read, unseen,
        space, rfl⟩
    · cases h

theorem eq_append_drop {word : Units} (h : word.isPrefixOf text = true)
    : text = word ++ text.drop word.length := by
  obtain ⟨rest, rfl⟩ := List.isPrefixOf_iff_prefix.mp h
  rw [List.drop_left]

theorem reads_of_readScalar {rest : Units} {value : Json ν}
    (h : readScalar toNumber total stack text = .ok (value, rest))
    : Reads toNumber text (.value value) true rest := by
  unfold readScalar at h
  dsimp only at h
  split at h
  · cases h
  rename_i c others
  split at h
  · rename_i isQuote
    subst isQuote
    obtain ⟨read, done, same⟩ := map_eq_ok h
    cases same
    exact .string (chars_of_readString done)
  split at h
  · rename_i word
    cases h
    rw [eq_append_drop word]
    exact .yes _
  split at h
  · rename_i word
    cases h
    rw [eq_append_drop word]
    exact .no _
  split at h
  · rename_i word
    cases h
    rw [eq_append_drop word]
    exact .null _
  split at h
  · split at h
    · cases h
    rename_i token after read
    cases h
    obtain ⟨isNumber, front⟩ := isNumber_of_readNumber read
    rw [front]
    exact .number _ isNumber
  · split at h <;> cases h

theorem head_cons (h : text.head? = some c) : text = c :: text.tail := by
  cases text with
  | nil => cases h
  | cons d rest =>
    obtain rfl := Option.some.inj h
    rfl

theorem readValue_ok (h : readValue toNumber total stack text = .ok machine)
    : (∃ value rest, machine = .attaching value stack rest
        ∧ Reads toNumber (skipWhitespace text) (.value value) true rest)
      ∨ (∃ body, skipWhitespace text = lbracket :: body ∧ machine
          = .reading (.array [] (childPointer stack) :: stack) (skipWhitespace body))
      ∨ ∃ body, skipWhitespace text = lbrace :: body
        ∧ readKey [] [] (childPointer stack) stack (skipWhitespace body) = .ok machine := by
  unfold readValue at h
  dsimp only at h
  generalize skipWhitespace text = inner at h
  split at h
  · rename_i opens
    rw [head_cons opens]
    split at h
    · rename_i closes
      cases h
      have space := blanks_skip inner.tail
      rw [head_cons closes] at space
      exact .inl ⟨_, _, rfl, .noMembers space⟩
    · exact .inr (.inr ⟨_, rfl, h⟩)
  split at h
  · rename_i opens
    rw [head_cons opens]
    split at h
    · rename_i closes
      cases h
      have space := blanks_skip inner.tail
      rw [head_cons closes] at space
      exact .inl ⟨_, _, rfl, .noElements space⟩
    · cases h
      exact .inr (.inl ⟨_, rfl, rfl⟩)
  · obtain ⟨read, done, same⟩ := map_eq_ok h
    exact .inl ⟨_, _, same.symm, reads_of_readScalar done⟩

/-- A value that is attached ends the document, goes on with the next element or member, or
closes its container.
-/
theorem attachValue_ok {value : Json ν} {stack : List (Frame ν)} {text : Units}
    {result : Machine ν ⊕ Json ν} (h : attachValue value stack text = .ok result)
    : (stack = [] ∧ result = .inr value ∧ Blanks text [])
      ∨ ∃ frame below, stack = frame :: below
        ∧ ((∃ rest, Blanks text ((frame.attach value).closing :: rest)
            ∧ result = .inl (.attaching (frame.attach value).value below rest))
          ∨ ∃ rest, Blanks text (comma :: rest) ∧ match frame.attach value with
            | .array items pointer =>
              result = .inl (.reading (.array items pointer :: below) rest)
            | .object members keys pointer _ => ∃ machine, result = .inl machine
                ∧ readKey members keys pointer below (skipWhitespace rest) = .ok machine) := by
  have space := blanks_skip text
  unfold attachValue at h
  dsimp only at h
  generalize skipWhitespace text = inner at h space
  split at h
  · split at h
    · rename_i done
      cases h
      exact .inl ⟨rfl, rfl, done ▸ space⟩
    · cases h
  · rename_i frame below
    refine .inr ⟨frame, below, rfl, ?_⟩
    split at h
    · rename_i more
      rw [head_cons more] at space
      refine .inr ⟨_, space, ?_⟩
      cases joined : frame.attach value with
      | array items pointer =>
        rw [joined] at h
        cases h
        rfl
      | object members keys pointer key =>
        rw [joined] at h
        obtain ⟨machine, read, same⟩ := map_eq_ok h
        exact ⟨machine, same.symm, read⟩
    · split at h
      · rename_i closes
        rw [head_cons closes] at space
        cases h
        exact .inl ⟨_, space, rfl⟩
      · split at h <;> cases h

theorem readKey_length (h : readKey members keys pointer stack text = .ok machine)
    : machine.rest.length < text.length := by
  obtain ⟨a, key, b, c, rfl, chars, -, mark, rfl⟩ := readKey_ok h
  have first := chars.length
  have last := mark.length
  simp only [List.length_cons, Machine.rest] at last ⊢
  omega

theorem step_length {before after : Machine ν} (h : step toNumber total before = .ok (.inl after))
    : after.rest.length < before.rest.length := by
  cases before with
  | reading stack text =>
    obtain ⟨machine, read, same⟩ := map_eq_ok h
    cases same
    have shorter := skipWhitespace_length text
    rcases readValue_ok read with
      ⟨value, rest, rfl, phrase⟩ | ⟨body, opens, rfl⟩ | ⟨body, opens, key⟩
    · exact Nat.lt_of_lt_of_le phrase.length shorter
    · have inner := skipWhitespace_length body
      rw [opens, List.length_cons] at shorter
      simp only [Machine.rest]
      omega
    · have inner := skipWhitespace_length body
      have keyed := readKey_length key
      rw [opens, List.length_cons] at shorter
      simp only [Machine.rest] at keyed ⊢
      omega
  | attaching value stack text =>
    rcases attachValue_ok h with
      ⟨_, ended, _⟩ | ⟨frame, below, rfl, ⟨rest, space, same⟩ | ⟨rest, space, next⟩⟩
    · cases ended
    · cases same
      exact Nat.lt_of_lt_of_le (Nat.lt_succ_self _) space.length
    have shorter := space.length
    rw [List.length_cons] at shorter
    cases joined : frame.attach value with
    | array items pointer =>
      rw [joined] at next
      cases next
      exact shorter
    | object members keys pointer key =>
      rw [joined] at next
      obtain ⟨machine, same, read⟩ := next
      cases same
      have keyed := readKey_length read
      have inner := skipWhitespace_length rest
      simp only [Machine.rest] at keyed ⊢
      omega

/-- The parser's loop, which ends because every step reads something. -/
def run (toNumber : Units → ν) (total : Nat) (machine : Machine ν) : Except Refusal (Json ν) :=
  match _taken : step toNumber total machine with
  | .error refusal => .error refusal
  | .ok (.inr value) => .ok value
  | .ok (.inl next) => run toNumber total next
termination_by machine.rest.length
decreasing_by exact step_length _taken

def parseStrictJson (toNumber : Units → ν) (text : Units) : Except Refusal (Json ν) :=
  run toNumber text.length (.reading [] text)

theorem run_eq (machine : Machine ν)
    : run toNumber total machine
      = (step toNumber total machine).bind (Sum.elim (run toNumber total) .ok) := by
  rw [run.eq_def]
  split
  · rename_i taken
    rw [taken]
    rfl
  · rename_i taken
    rw [taken]
    rfl
  · rename_i taken
    rw [taken]
    rfl

-- What an accepting run has read

variable {a b : Units}

theorem Blanks.trans {c : Units} (first : Blanks a b) (second : Blanks b c) : Blanks a c := by
  obtain ⟨blanks, all, rfl⟩ := first
  obtain ⟨others, alsoAll, rfl⟩ := second
  exact ⟨blanks ++ others, List.forall_mem_append.mpr ⟨all, alsoAll⟩, (List.append_assoc ..).symm⟩

variable {items : List (Json ν)}

theorem Reads.elements_after {rest : Units} (space : Blanks a b)
    (h : Reads toNumber b (.elements items) unique rest)
    : Reads toNumber a (.elements items) unique rest := by
  cases h with
  | lastElement before element after => exact .lastElement (space.trans before) element after
  | element before element after more => exact .element (space.trans before) element after more

variable {fields : List (Units × Json ν)}

theorem Reads.members_after {rest : Units} (space : Blanks a b)
    (h : Reads toNumber b (.members fields) unique rest)
    : Reads toNumber a (.members fields) unique rest := by
  cases h with
  | lastMember before chars mark inner member after =>
    exact .lastMember (space.trans before) chars mark inner member after
  | member before chars mark inner member after more =>
    exact .member (space.trans before) chars mark inner member after more

/-- Members that repeat no key, neither among themselves nor of those seen before. -/
def Fresh (seen : List Units) (fields : List (Units × Json ν)) : Prop :=
  (fields.map Prod.fst).Nodup ∧ ∀ key ∈ fields.map Prod.fst, key ∉ seen

variable {key : Units}

theorem fresh_cons {seen : List Units} {value : Json ν}
    : Fresh seen ((key, value) :: fields) ↔ key ∉ seen ∧ Fresh (seen ++ [key]) fields := by
  simp only [Fresh, List.map_cons, List.nodup_cons, List.forall_mem_cons, List.mem_append,
    List.mem_singleton, not_or]
  constructor
  · rintro ⟨⟨new, distinct⟩, unseen, others⟩
    exact ⟨unseen, distinct, fun other member =>
      ⟨others other member, fun same => new (same ▸ member)⟩⟩
  · rintro ⟨unseen, distinct, others⟩
    exact ⟨⟨fun member => (others key member).2 rfl, distinct⟩, unseen,
      fun other member => (others other member).1⟩

def defineMore (object fields : List (Units × Json ν)) : List (Units × Json ν) :=
  fields.foldl (fun object member => InsertionMap.set object member.1 member.2) object

/-- What a run that accepts a text's phrase goes on from, at each place where one may begin. -/
structure Accepted (toNumber : Units → ν) (total : Nat) (final : Json ν) (text : Units) : Prop where
  value : ∀ stack, run toNumber total (.reading stack text) = .ok final
    → ∃ inner value rest, Blanks text inner ∧ Reads toNumber inner (.value value) true rest
      ∧ run toNumber total (.attaching value stack rest) = .ok final
  elements : ∀ items pointer below,
    run toNumber total (.reading (.array items pointer :: below) text) = .ok final
    → ∃ more rest, Reads toNumber text (.elements more) true rest
      ∧ run toNumber total (.attaching (.arr (items ++ more)) below rest) = .ok final
  members : ∀ members keys pointer below machine,
    readKey members keys pointer below text = .ok machine → run toNumber total machine = .ok final
    → ∃ fields rest, Reads toNumber text (.members fields) true rest ∧ Fresh keys fields
      ∧ run toNumber total (.attaching (.obj (defineMore members fields)) below rest) = .ok final

section Accepting

variable {final : Json ν} {text : Units}

theorem taken_of_run {machine : Machine ν} (accepts : run toNumber total machine = .ok final)
    : ∃ result, step toNumber total machine = .ok result
      ∧ ((∃ next, result = .inl next ∧ run toNumber total next = .ok final)
        ∨ result = .inr final) := by
  rw [run_eq] at accepts
  obtain ⟨result, taken, goes⟩ := bind_eq_ok.mp accepts
  refine ⟨result, taken, ?_⟩
  cases result with
  | inl next => exact .inl ⟨next, rfl, goes⟩
  | inr value => exact .inr (congrArg Sum.inr (Except.ok.inj goes))

theorem attached_of_run {value : Json ν} {frame : Frame ν} {below : List (Frame ν)}
    (accepts : run toNumber total (.attaching value (frame :: below) text) = .ok final)
    : (∃ rest, Blanks text ((frame.attach value).closing :: rest)
        ∧ run toNumber total (.attaching (frame.attach value).value below rest) = .ok final)
      ∨ ∃ rest next, Blanks text (comma :: rest) ∧ run toNumber total next = .ok final
        ∧ match frame.attach value with
          | .array items pointer => next = .reading (.array items pointer :: below) rest
          | .object members keys pointer _ =>
            readKey members keys pointer below (skipWhitespace rest) = .ok next := by
  obtain ⟨result, taken, goes⟩ := taken_of_run accepts
  rcases @attachValue_ok _ value (frame :: below) _ _ taken with
    ⟨ended, -⟩ | ⟨_, _, same, ⟨rest, space, rfl⟩ | ⟨rest, space, next⟩⟩
  · cases ended
  · cases same
    obtain ⟨next, same, accepts⟩ := goes.resolve_right Sum.inl_ne_inr
    cases same
    exact .inl ⟨rest, space, accepts⟩
  · cases same
    refine .inr ⟨rest, ?_⟩
    cases joined : frame.attach value with
    | array items pointer =>
      rw [joined] at next
      subst next
      obtain ⟨next, same, accepts⟩ := goes.resolve_right Sum.inl_ne_inr
      exact ⟨next, space, accepts, (Sum.inl.inj same).symm⟩
    | object members keys pointer key =>
      rw [joined] at next
      obtain ⟨machine, rfl, keyed⟩ := next
      obtain ⟨next, same, accepts⟩ := goes.resolve_right Sum.inl_ne_inr
      exact ⟨next, space, accepts, Sum.inl.inj same ▸ keyed⟩

variable (shorter : ∀ other : Units, other.length < text.length
  → Accepted toNumber total final other)

include shorter

theorem accepted_value (stack : List (Frame ν))
    (accepts : run toNumber total (.reading stack text) = .ok final)
    : ∃ inner value rest, Blanks text inner ∧ Reads toNumber inner (.value value) true rest
      ∧ run toNumber total (.attaching value stack rest) = .ok final := by
  have space := blanks_skip text
  have fewer := space.length
  obtain ⟨result, taken, goes⟩ := taken_of_run accepts
  obtain ⟨machine, read, rfl⟩ := map_eq_ok taken
  obtain ⟨next, same, accepts⟩ := goes.resolve_right Sum.inl_ne_inr
  cases same
  rcases readValue_ok read with
    ⟨value, rest, rfl, phrase⟩ | ⟨body, opens, rfl⟩ | ⟨body, opens, keyed⟩
  · exact ⟨_, value, rest, space, phrase, accepts⟩
  · rw [opens] at space fewer
    have inside := blanks_skip body
    have less : (skipWhitespace body).length < text.length :=
      Nat.lt_of_le_of_lt inside.length fewer
    obtain ⟨items, rest, phrase, goes⟩ := (shorter _ less).elements [] _ _ accepts
    exact ⟨_, _, rest, space, .array (phrase.elements_after inside), goes⟩
  · rw [opens] at space fewer
    have inside := blanks_skip body
    have less : (skipWhitespace body).length < text.length :=
      Nat.lt_of_le_of_lt inside.length fewer
    obtain ⟨fields, rest, phrase, fresh, goes⟩ :=
      (shorter _ less).members [] [] _ _ _ keyed accepts
    have object := Reads.object (phrase.members_after inside)
    rw [decide_eq_true fresh.1] at object
    exact ⟨_, _, rest, space, object, goes⟩

theorem accepted_elements (items : List (Json ν)) (pointer : Units) (below : List (Frame ν))
    (accepts : run toNumber total (.reading (.array items pointer :: below) text) = .ok final)
    : ∃ more rest, Reads toNumber text (.elements more) true rest
      ∧ run toNumber total (.attaching (.arr (items ++ more)) below rest) = .ok final := by
  obtain ⟨inner, value, after, before, element, goes⟩ := accepted_value shorter _ accepts
  rcases attached_of_run goes with ⟨rest, space, accepts⟩ | ⟨rest, _, space, accepts, rfl⟩
  · exact ⟨[value], rest, .lastElement before element space, accepts⟩
  have less : rest.length < text.length :=
    (Nat.lt_of_lt_of_le (Nat.lt_succ_self _) space.length).trans
      (element.length.trans_le before.length)
  obtain ⟨more, last, phrase, goes⟩ := (shorter _ less).elements _ _ _ accepts
  rw [List.append_assoc] at goes
  exact ⟨value :: more, last, .element before element space phrase, goes⟩

theorem accepted_members (members : List (Units × Json ν)) (keys : List Units)
    (pointer : Units) (below : List (Frame ν)) (machine : Machine ν)
    (keyed : readKey members keys pointer below text = .ok machine)
    (accepts : run toNumber total machine = .ok final)
    : ∃ fields rest, Reads toNumber text (.members fields) true rest ∧ Fresh keys fields
      ∧ run toNumber total (.attaching (.obj (defineMore members fields)) below rest)
        = .ok final := by
  obtain ⟨a, key, b, c, rfl, chars, unseen, mark, rfl⟩ := readKey_ok keyed
  have less : c.length < (quote :: a).length :=
    (Nat.lt_of_lt_of_le (Nat.lt_succ_self _) mark.length).trans
      (Nat.lt_succ_of_lt chars.length)
  obtain ⟨inner, value, after, before, member, goes⟩ := (shorter c less).value _ accepts
  have fewer := member.length.trans_le before.length
  rcases attached_of_run goes with ⟨rest, space, accepts⟩ | ⟨rest, next, space, accepts, keyed⟩
  · refine ⟨[(key, value)], rest, .lastMember (.refl _) chars mark before member space, ?_, accepts⟩
    exact fresh_cons.mpr ⟨unseen, List.nodup_nil, by simp⟩
  have inside := blanks_skip rest
  have shortest : (skipWhitespace rest).length < (quote :: a).length :=
    (Nat.lt_of_le_of_lt inside.length
      (Nat.lt_of_lt_of_le (Nat.lt_succ_self _) space.length)).trans (fewer.trans less)
  obtain ⟨fields, last, phrase, fresh, goes⟩ :=
    (shorter _ shortest).members _ _ _ _ _ keyed accepts
  exact ⟨(key, value) :: fields, last,
    .member (.refl _) chars mark before member space (phrase.members_after inside),
    fresh_cons.mpr ⟨unseen, fresh⟩, goes⟩

end Accepting

/-- An accepting run reads phrases of the grammar, by induction on the text's length. -/
theorem accepted (final : Json ν) (text : Units) : Accepted toNumber total final text := by
  induction h : text.length using Nat.strong_induction_on generalizing text with
  | _ length ih =>
    subst h
    have shorter : ∀ other : Units, other.length < text.length
        → Accepted toNumber total final other := fun other less => ih _ less other rfl
    exact ⟨accepted_value shorter, accepted_elements shorter, accepted_members shorter⟩

-- What a phrase of the grammar makes a run do

/-- A phrase without repeated keys takes a run to the next machine, and any other ends it with
the refusal of a repeated key.
-/
structure Passes (toNumber : Units → ν) (total : Nat) (unique : Prop)
    (result : Except Refusal (Json ν)) (next : Machine ν)
    : Prop where
  goesOn : unique → result = run toNumber total next
  refused : ¬ unique → ∃ refusal, result = .error refusal ∧ refusal.code = .duplicateKey

variable {result : Except Refusal (Json ν)} {next : Machine ν}

theorem Passes.of_eq (h : result = run toNumber total next)
    : Passes toNumber total True result next :=
  ⟨fun _ => h, fun repeated => absurd trivial repeated⟩

theorem Passes.trans {first second : Prop} {last : Machine ν}
    (h : Passes toNumber total first result next)
    (more : Passes toNumber total second (run toNumber total next) last)
    : Passes toNumber total (first ∧ second) result last := by
  refine ⟨fun both => (h.goesOn both.1).trans (more.goesOn both.2), fun repeated => ?_⟩
  by_cases one : first
  · rw [h.goesOn one]
    exact more.refused fun other => repeated ⟨one, other⟩
  · exact h.refused one

theorem Passes.congr {first second : Prop} (h : Passes toNumber total first result next)
    (same : first ↔ second)
    : Passes toNumber total second result next :=
  propext same ▸ h

theorem Passes.then_eq {unique : Prop} {last : Machine ν}
    (h : Passes toNumber total unique result next)
    (same : run toNumber total next = run toNumber total last)
    : Passes toNumber total unique result last :=
  ⟨fun one => (h.goesOn one).trans same, h.refused⟩

theorem Blanks.follows {rest : Units} (space : Blanks text rest) (h : Follows rest)
    : Follows text := by
  obtain ⟨blanks, all, rfl⟩ := space
  intro c first
  cases blanks with
  | nil => exact h c first
  | cons d others =>
    obtain rfl := Option.some.inj first
    exact .inl (all d List.mem_cons_self)

theorem follows_cons (h : c = comma ∨ c = rbracket ∨ c = rbrace) (rest : Units)
    : Follows (c :: rest) := by
  intro d first
  obtain rfl := Option.some.inj first
  exact .inr h

theorem Reads.starts {rest : Units} {value : Json ν}
    (h : Reads toNumber text (.value value) unique rest)
    : Stops isBlank text ∧ text.head? ≠ some rbracket := by
  cases h with
  | null | yes | no | string | noElements | array | noMembers | object =>
    refine ⟨fun c first => ?_, ?_⟩
    · obtain rfl := Option.some.inj first
      rfl
    · exact fun first => absurd (Option.some.inj first) (by decide)
  | number rest isNumber =>
    refine ⟨fun c first => ?_, fun first => ?_⟩
    · have range := isNumber.head first
      simp only [isBlank, Bool.or_eq_false_iff, decide_eq_false_iff_not]
      omega
    · exact absurd (isNumber.head first) (by decide)

theorem run_reading_skip {rest : Units} (space : Blanks text rest)
    : run toNumber total (.reading stack text) = run toNumber total (.reading stack rest) := by
  have same : readValue toNumber total stack text = readValue toNumber total stack rest := by
    unfold readValue
    rw [space.skip_eq]
  rw [run_eq, run_eq (.reading stack rest)]
  simp only [step, same]

theorem run_reading {before : Units} (space : Blanks before text)
    : run toNumber total (.reading stack before)
      = (readValue toNumber total stack text).bind (run toNumber total) := by
  rw [run_reading_skip space, run_eq]
  change ((readValue toNumber total stack text).map Sum.inl).bind _ = _
  cases readValue toNumber total stack text <;> rfl

theorem run_scalar {before rest : Units} {value : Json ν} (space : Blanks before text)
    (starts : Stops isBlank text) (noObject : text.head? ≠ some lbrace)
    (noArray : text.head? ≠ some lbracket)
    (read : readScalar toNumber total stack text = .ok (value, rest))
    : run toNumber total (.reading stack before)
      = run toNumber total (.attaching value stack rest) := by
  rw [run_reading space]
  unfold readValue
  dsimp only
  rw [(Blanks.refl text).skip starts, if_neg noObject, if_neg noArray, read]
  rfl

theorem readScalar_of_isNumber {rest : Units} (isNumber : IsNumber token) (follows : Follows rest)
    : readScalar toNumber total stack (token ++ rest) = .ok (.num (toNumber token), rest) := by
  have read := readNumber_of_isNumber isNumber follows
  obtain ⟨c, others, rfl, starts⟩ := isNumber.starts
  have range : c = 0x2d ∨ 0x30 ≤ c ∧ c ≤ 0x39 := starts.imp_right of_decide_eq_true
  have noWord : ∀ word, (∃ first others, word = first :: others ∧ 0x5b ≤ first)
      → ¬ word.isPrefixOf (c :: (others ++ rest)) = true := by
    rintro _ ⟨first, word, rfl, letter⟩
    rw [List.isPrefixOf_cons_cons, Bool.and_eq_true, beq_iff_eq]
    omega
  unfold readScalar
  dsimp only [List.cons_append]
  rw [if_neg (by unfold quote; omega), if_neg (noWord (ascii "true") ⟨_, _, rfl, by decide⟩),
    if_neg (noWord (ascii "false") ⟨_, _, rfl, by decide⟩),
    if_neg (noWord (ascii "null") ⟨_, _, rfl, by decide⟩), if_pos (by simpa using starts)]
  rw [List.cons_append] at read
  rw [read]

theorem skip_cons {rest : Units} (space : Blanks text (c :: rest)) (notBlank : isBlank c = false)
    : skipWhitespace text = c :: rest := by
  refine space.skip fun d first => ?_
  obtain rfl := Option.some.inj first
  exact notBlank

theorem closing_attach (value : Json ν) (frame : Frame ν)
    : (frame.attach value).closing = frame.closing := by
  cases frame <;> rfl

variable {below : List (Frame ν)}

theorem run_closing {value : Json ν} {frame : Frame ν} {rest : Units}
    (space : Blanks text (frame.closing :: rest))
    : run toNumber total (.attaching value (frame :: below) text)
      = run toNumber total (.attaching (frame.attach value).value below rest) := by
  have skipped : skipWhitespace text = frame.closing :: rest :=
    skip_cons space (by cases frame <;> rfl)
  have notComma : frame.closing ≠ comma := by cases frame <;> exact Nat.ne_of_beq_eq_false rfl
  rw [run_eq]
  simp only [step, attachValue, skipped, closing_attach, List.head?_cons, List.tail_cons,
    Option.some.injEq, if_neg notComma, if_true]
  rfl

theorem run_comma_array {value : Json ν} {rest : Units} (space : Blanks text (comma :: rest))
    : run toNumber total (.attaching value (.array items pointer :: below) text)
      = run toNumber total (.reading (.array (items ++ [value]) pointer :: below) rest) := by
  rw [run_eq]
  simp only [step, attachValue, skip_cons space rfl, List.head?_cons, List.tail_cons,
    Frame.attach, if_true]
  rfl

theorem run_comma_object {value : Json ν} {rest : Units} (space : Blanks text (comma :: rest))
    : run toNumber total (.attaching value (.object members keys pointer key :: below) text)
      = (readKey (InsertionMap.set members key value) keys pointer below
          (skipWhitespace rest)).bind (run toNumber total) := by
  rw [run_eq]
  simp only [step, attachValue, skip_cons space rfl, List.head?_cons, List.tail_cons,
    Frame.attach, if_true]
  cases readKey (InsertionMap.set members key value) keys pointer below (skipWhitespace rest) <;>
    rfl

theorem passes_key {c : Units} (chars : Chars a key b) (mark : Blanks b (colon :: c))
    : Passes toNumber total (key ∉ keys)
        ((readKey members keys pointer below (quote :: a)).bind (run toNumber total))
        (.reading (.object members (keys ++ [key]) pointer key :: below) c) := by
  have skipped : skipWhitespace b = colon :: c := skip_cons mark rfl
  have read := readString_of_chars chars pointer
  constructor
  · intro unseen
    simp [readKey, read, Except.bind, skipped, unseen]
  · intro seen
    rw [not_not] at seen
    simp [readKey, read, Except.bind, seen]

def PhrasePasses (toNumber : Units → ν) (total : Nat) (text : Units) (unique : Prop)
    (rest : Units)
    : Node ν → Prop
  | .value value => Follows rest → ∀ before stack, Blanks before text
      → Passes toNumber total unique (run toNumber total (.reading stack before))
          (.attaching value stack rest)
  | .elements items => ∀ done pointer below,
      Passes toNumber total unique
        (run toNumber total (.reading (.array done pointer :: below) text))
        (.attaching (.arr (done ++ items)) below rest)
  | .members fields => ∀ done keys pointer below,
      Passes toNumber total (unique ∧ Fresh keys fields)
        ((readKey done keys pointer below (skipWhitespace text)).bind (run toNumber total))
        (.attaching (.obj (defineMore done fields)) below rest)

theorem passes_member {done : List (Units × Json ν)} {c d e : Units} {value : Json ν}
    {unique : Prop} (before : Blanks text (quote :: a)) (chars : Chars a key b)
    (mark : Blanks b (colon :: c)) (inner : Blanks c d) (follows : Follows e)
    (member : PhrasePasses toNumber total d unique e (.value value))
    : Passes toNumber total (key ∉ keys ∧ unique)
        ((readKey done keys pointer below (skipWhitespace text)).bind (run toNumber total))
        (.attaching value (.object done (keys ++ [key]) pointer key :: below) e) := by
  rw [skip_cons before rfl]
  exact (passes_key chars mark).trans (member follows c _ inner)

theorem readValue_array (stack : List (Frame ν)) (text : Units)
    : readValue toNumber total stack (lbracket :: text)
      = if (skipWhitespace text).head? = some rbracket then
          .ok (.attaching (.arr []) stack (skipWhitespace text).tail)
        else .ok (.reading (.array [] (childPointer stack) :: stack) (skipWhitespace text)) := rfl

theorem readValue_object (stack : List (Frame ν)) (text : Units)
    : readValue toNumber total stack (lbrace :: text)
      = if (skipWhitespace text).head? = some rbrace then
          .ok (.attaching (.obj []) stack (skipWhitespace text).tail)
        else readKey [] [] (childPointer stack) stack (skipWhitespace text) := rfl

theorem Reads.elements_open {rest : Units} (h : Reads toNumber text (.elements items) unique rest)
    : (skipWhitespace text).head? ≠ some rbracket := by
  cases h with
  | lastElement before element _ | element before element _ _ =>
    rw [before.skip element.starts.1]
    exact element.starts.2

theorem Reads.members_open {rest : Units} (h : Reads toNumber text (.members fields) unique rest)
    : (skipWhitespace text).head? ≠ some rbrace := by
  cases h with
  | lastMember before _ _ _ _ _ | member before _ _ _ _ _ _ =>
    rw [skip_cons before rfl]
    exact fun first => absurd (Option.some.inj first) (by decide)

theorem Reads.passes {rest : Units} {node : Node ν} (h : Reads toNumber text node unique rest)
    : PhrasePasses toNumber total text (unique = true) rest node := by
  induction h with
  | null rest | yes rest | no rest =>
    intro _ before stack space
    refine (Passes.of_eq (run_scalar space ?_ ?_ ?_ rfl)).congr (iff_of_true trivial rfl)
    · intro c first
      obtain rfl := Option.some.inj first
      rfl
    all_goals exact fun first => absurd (Option.some.inj first) (by decide)
  | number rest isNumber =>
    intro follows before stack space
    have starts := (@Reads.number _ toNumber _ rest isNumber).starts.1
    refine (Passes.of_eq (run_scalar space starts ?_ ?_
      (readScalar_of_isNumber isNumber follows))).congr (iff_of_true trivial rfl)
    all_goals exact fun first => absurd (isNumber.head first) (by decide)
  | @string text units rest chars =>
    intro _ before stack space
    have read : readScalar toNumber total stack (quote :: text) = .ok (.str units, rest) := by
      simp [readScalar, readString_of_chars chars, Except.map]
    refine (Passes.of_eq (run_scalar space ?_ ?_ ?_ read)).congr (iff_of_true trivial rfl)
    · intro c first
      obtain rfl := Option.some.inj first
      rfl
    all_goals exact fun first => absurd (Option.some.inj first) (by decide)
  | noElements inside =>
    intro _ before stack space
    refine (Passes.of_eq ?_).congr (iff_of_true trivial rfl)
    rw [run_reading space, readValue_array, skip_cons inside rfl]
    rfl
  | @array text rest items unique elements ih =>
    intro _ before stack space
    rw [run_reading space, readValue_array, if_neg elements.elements_open]
    have inside := ih [] (childPointer stack) stack
    rw [run_reading_skip (blanks_skip text)] at inside
    exact inside
  | noMembers inside =>
    intro _ before stack space
    refine (Passes.of_eq ?_).congr (iff_of_true trivial rfl)
    rw [run_reading space, readValue_object, skip_cons inside rfl]
    rfl
  | @object text rest fields unique members ih =>
    intro _ before stack space
    rw [run_reading space, readValue_object, if_neg members.members_open]
    refine (ih _ _ _ _).congr ?_
    simp [Fresh]
  | lastElement before element after ih =>
    intro done pointer below
    exact (ih (after.follows (follows_cons (by simp) _)) _ _ before).then_eq (run_closing after)
  | element before element after _ ih others =>
    intro done pointer below
    have first := ih (after.follows (follows_cons (by simp) _)) _
      (.array done pointer :: below) before
    refine ((first.then_eq (run_comma_array after)).trans (others _ _ _)).congr ?_ |>.then_eq ?_
    · exact (Bool.and_eq_true ..).symm ▸ Iff.rfl
    · rw [List.append_assoc]
      rfl
  | lastMember before chars mark inner _ after ih =>
    intro done keys pointer below
    have follows := after.follows (follows_cons (by simp) _)
    refine ((passes_member before chars mark inner follows ih).then_eq
      (run_closing after)).congr ?_
    simp [Fresh, and_comm]
  | @member _ _ _ _ _ _ _ key _ value _ _ _ before chars mark inner _ after _ ih others =>
    intro done keys pointer below
    have follows := after.follows (follows_cons (by simp) _)
    have more := others (InsertionMap.set done key value) (keys ++ [key]) pointer below
    rw [← run_comma_object after] at more
    refine ((passes_member before chars mark inner follows ih).trans more).congr ?_
    rw [fresh_cons, Bool.and_eq_true]
    tauto

theorem run_end {value : Json ν} (space : Blanks text [])
    : run toNumber total (.attaching value [] text) = .ok value := by
  have skipped : skipWhitespace text = [] := space.skip (by simp [Stops])
  rw [run_eq]
  simp only [step, attachValue, skipped, if_true]
  rfl

theorem end_of_run {value final : Json ν}
    (accepts : run toNumber total (.attaching value [] text) = .ok final)
    : Blanks text [] ∧ value = final := by
  obtain ⟨result, taken, goes⟩ := taken_of_run accepts
  rcases @attachValue_ok _ value [] _ _ taken with ⟨-, rfl, space⟩ | ⟨frame, below, none, -⟩
  · obtain ⟨next, other, -⟩ | same := goes
    · cases other
    · exact ⟨space, Sum.inr.inj same⟩
  · cases none

/-- The strict reader accepts the documents in which no object has two members of one key, with
the value `JSON.parse` returns, and refuses every other document of the grammar for a repeated
key.
-/
theorem strict_json_agrees (toNumber : Units → ν) (text : Units)
    : (∀ value, parseStrictJson toNumber text = .ok value ↔ JsonParses toNumber text value true)
      ∧ ∀ value, JsonParses toNumber text value false
        → ∃ refusal, parseStrictJson toNumber text = .error refusal
          ∧ refusal.code = .duplicateKey := by
  have passed : ∀ {value unique}, JsonParses toNumber text value unique
      → Passes toNumber text.length (unique = true) (parseStrictJson toNumber text)
          (.attaching value [] []) := by
    rintro value unique ⟨inner, rest, before, phrase, after⟩
    refine (phrase.passes (after.follows (by simp [Follows])) text [] before).then_eq ?_
    rw [run_end after, run_end (Blanks.refl [])]
  refine ⟨fun value => ⟨fun accepts => ?_, fun parses => ?_⟩, fun value repeated => ?_⟩
  · obtain ⟨inner, read, rest, before, phrase, goes⟩ := (accepted value text).value [] accepts
    obtain ⟨after, rfl⟩ := end_of_run goes
    exact ⟨inner, rest, before, phrase, after⟩
  · rw [(passed parses).goesOn rfl, run_end (Blanks.refl [])]
  · exact (passed repeated).refused Bool.false_ne_true

end Flair.Archives
