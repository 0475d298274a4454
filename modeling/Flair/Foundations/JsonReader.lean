import Flair.Foundations.JsonText

/-! Reading JSON text back: a quoted string with its escapes, and the punctuation around it.
What a serializer has quoted is read back as it was.
-/

namespace JsonText

-- Strings

def hexValue (c : Char) : Option Nat :=
  if '0' ≤ c ∧ c ≤ '9' then some (c.toNat - '0'.toNat)
  else if 'a' ≤ c ∧ c ≤ 'f' then some (c.toNat - 'a'.toNat + 10)
  else if 'A' ≤ c ∧ c ≤ 'F' then some (c.toNat - 'A'.toNat + 10)
  else none

def codeUnit (first second third fourth : Char) : Option Nat :=
  (hexValue first).bind fun a =>
    (hexValue second).bind fun b =>
      (hexValue third).bind fun c =>
        (hexValue fourth).map fun d => ((a * 16 + b) * 16 + c) * 16 + d

def simpleEscape (c : Char) : Option Char :=
  if c = '"' ∨ c = '\\' ∨ c = '/' then some c
  else if c = 'b' then some '\x08'
  else if c = 'f' then some '\x0c'
  else if c = 'n' then some '\n'
  else if c = 'r' then some '\r'
  else if c = 't' then some '\t'
  else none

/-- The rest of a string after its opening quote, with what follows the closing one. Two
escaped surrogates make one character; one alone makes none.
-/
def readString : List Char → Option (List Char × List Char)
  | [] => none
  | c :: rest =>
    if c = '"' then some ([], rest)
    else if c = '\\' then
      match rest with
      | 'u' :: a :: b :: c :: d :: rest =>
        (codeUnit a b c d).bind fun unit =>
          if 0xD800 ≤ unit ∧ unit < 0xDC00 then
            match rest with
            | '\\' :: 'u' :: e :: f :: g :: h :: rest =>
              (codeUnit e f g h).bind fun low =>
                if 0xDC00 ≤ low ∧ low < 0xE000 then
                  let code := 0x10000 + (unit - 0xD800) * 0x400 + (low - 0xDC00)
                  (readString rest).map fun read => (Char.ofNat code :: read.1, read.2)
                else none
            | _ => none
          else if 0xDC00 ≤ unit ∧ unit < 0xE000 then none
          else (readString rest).map fun read => (Char.ofNat unit :: read.1, read.2)
      | e :: rest =>
        (simpleEscape e).bind fun d =>
          (readString rest).map fun read => (d :: read.1, read.2)
      | [] => none
    else if c.toNat < 32 then none
    else (readString rest).map fun read => (c :: read.1, read.2)

theorem codeUnit_hexDigits : ∀ value < 32,
    codeUnit '0' '0' (hexDigit (value / 16)) (hexDigit (value % 16)) = some value := by
  decide

theorem readString_escapeChar (c : Char) (rest : List Char)
    : readString (escapeChar c ++ rest)
      = (readString rest).map fun read => (c :: read.1, read.2) := by
  unfold escapeChar
  split
  · subst_vars; rfl
  rename_i notQuote
  split
  · subst_vars; rfl
  rename_i notBackslash
  split
  · subst_vars; rfl
  split
  · subst_vars; rfl
  split
  · subst_vars; rfl
  split
  · subst_vars; rfl
  split
  · subst_vars; rfl
  split
  · rename_i control
    have small : ¬ (0xD800 ≤ c.toNat ∧ c.toNat < 0xDC00) := by omega
    have low : ¬ (0xDC00 ≤ c.toNat ∧ c.toNat < 0xE000) := by omega
    simp only [List.cons_append, List.nil_append]
    rw [readString.eq_def]
    simp only [codeUnit_hexDigits c.toNat control, Option.bind_some, if_neg small, if_neg low,
      Char.ofNat_toNat]
    rfl
  · rename_i plain
    simp only [List.cons_append, List.nil_append]
    rw [readString.eq_def]
    simp only [if_neg notQuote, if_neg notBackslash, if_neg plain]

theorem readString_escaped (chars rest : List Char)
    : readString (chars.flatMap escapeChar ++ '"' :: rest) = some (chars, rest) := by
  induction chars with
  | nil =>
    rw [List.flatMap_nil, List.nil_append, readString.eq_def]
    rfl
  | cons c others ih =>
    rw [List.flatMap_cons, List.append_assoc, readString_escapeChar, ih]
    rfl

-- Texts between punctuation

def isBlank (c : Char) : Bool := c = ' ' || c = '\t' || c = '\n' || c = '\r'

def readMark (mark : Char) (chars : List Char) : Option (List Char) :=
  match chars.dropWhile isBlank with
  | c :: rest => if c = mark then some rest else none
  | [] => none

def readText (chars : List Char) : Option (String × List Char) :=
  (readMark '"' chars).bind fun rest =>
    (readString rest).map fun read => (String.ofList read.1, read.2)

theorem readMark_cons {mark : Char} (solid : isBlank mark = false) (rest : List Char)
    : readMark mark (mark :: rest) = some rest := by
  simp [readMark, solid]

theorem readText_quoteChars (text : String) (rest : List Char)
    : readText (quoteChars text.toList ++ rest) = some (text, rest) := by
  have quoted : quoteChars text.toList ++ rest
      = '"' :: (text.toList.flatMap escapeChar ++ '"' :: rest) := by
    simp [quoteChars]
  rw [readText, quoted, readMark_cons (by decide), Option.bind_some, readString_escaped]
  simp

end JsonText
