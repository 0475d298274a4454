import Mathlib.Data.List.Basic

/-! JSON texts of strings and of flat arrays, as a serializer writes them: what is escaped, and
that a quoted text is read back in one way.
-/

namespace JsonText

/-- The digits of a two-place hexadecimal number, lower case. -/
def hexDigit (value : Nat) : Char :=
  "0123456789abcdef".toList.getD value '0'

def escapeChar (c : Char) : List Char :=
  if c = '"' then ['\\', '"']
  else if c = '\\' then ['\\', '\\']
  else if c = '\x08' then ['\\', 'b']
  else if c = '\x0c' then ['\\', 'f']
  else if c = '\n' then ['\\', 'n']
  else if c = '\r' then ['\\', 'r']
  else if c = '\t' then ['\\', 't']
  else if c.toNat < 32 then
    ['\\', 'u', '0', '0', hexDigit (c.toNat / 16), hexDigit (c.toNat % 16)]
  else [c]

def quoteChars (chars : List Char) : List Char := '"' :: chars.flatMap escapeChar ++ ['"']

/-- `JSON.stringify` of a string. -/
def quote (text : String) : String := String.ofList (quoteChars text.toList)

/-- `JSON.stringify` of an array whose elements have these texts. -/
def array (texts : List String) : String :=
  String.ofList ('[' :: List.intercalate [','] (texts.map String.toList) ++ [']'])

-- Reading back

def unescape : List Char → Option (Char × List Char)
  | '\\' :: 'u' :: _ :: _ :: high :: low :: rest =>
    ((List.range 32).find? fun value =>
      hexDigit (value / 16) = high && hexDigit (value % 16) = low).map
        fun value => (Char.ofNat value, rest)
  | '\\' :: 'b' :: rest => some ('\x08', rest)
  | '\\' :: 'f' :: rest => some ('\x0c', rest)
  | '\\' :: 'n' :: rest => some ('\n', rest)
  | '\\' :: 'r' :: rest => some ('\r', rest)
  | '\\' :: 't' :: rest => some ('\t', rest)
  | '\\' :: c :: rest => some (c, rest)
  | c :: rest => some (c, rest)
  | [] => none

theorem find_hexDigits : ∀ value < 32,
    (List.range 32).find? (fun other =>
      hexDigit (other / 16) = hexDigit (value / 16)
        && hexDigit (other % 16) = hexDigit (value % 16))
      = some value := by
  decide

theorem unescape_escapeChar (c : Char) (rest : List Char)
    : unescape (escapeChar c ++ rest) = some (c, rest) := by
  unfold escapeChar
  split
  · subst_vars; rfl
  split
  · subst_vars; rfl
  split
  · subst_vars; rfl
  split
  · subst_vars; rfl
  split
  · subst_vars; rfl
  split
  · subst_vars; rfl
  split
  · subst_vars; rfl
  split
  · rename_i control
    simp only [List.cons_append, List.nil_append, unescape, find_hexDigits c.toNat control,
      Option.map_some, Char.ofNat_toNat]
  · rename_i _ notBackslash _ _ _ _ _ _
    simp only [List.cons_append, List.nil_append]
    unfold unescape
    split <;> simp_all

theorem escapeChar_ne_quote (c : Char) (rest more : List Char)
    : escapeChar c ++ rest ≠ '"' :: more := by
  intro h
  have read := unescape_escapeChar c rest
  rw [h] at read
  have isQuote : ('"', more) = (c, rest) := Option.some.inj read
  obtain ⟨rfl, rfl⟩ := Prod.mk.inj isQuote
  have lengths := congrArg List.length h
  simp [escapeChar] at lengths

/-- Escaped texts before a closing quote are equal only when the texts are, by induction on
the first.
-/
theorem escaped_inj {left right rest more : List Char}
    (h : left.flatMap escapeChar ++ '"' :: rest = right.flatMap escapeChar ++ '"' :: more)
    : left = right ∧ rest = more := by
  induction left generalizing right with
  | nil =>
    cases right with
    | nil => exact ⟨rfl, (List.cons.inj h).2⟩
    | cons c others =>
      simp only [List.flatMap_nil, List.nil_append, List.flatMap_cons, List.append_assoc] at h
      exact absurd h.symm (escapeChar_ne_quote c _ rest)
  | cons c others ih =>
    cases right with
    | nil =>
      simp only [List.flatMap_nil, List.nil_append, List.flatMap_cons, List.append_assoc] at h
      exact absurd h (escapeChar_ne_quote c _ more)
    | cons d others' =>
      simp only [List.flatMap_cons, List.append_assoc] at h
      have read := unescape_escapeChar c (others.flatMap escapeChar ++ '"' :: rest)
      rw [h, unescape_escapeChar] at read
      obtain ⟨rfl, tails⟩ := Prod.mk.inj (Option.some.inj read)
      obtain ⟨rfl, ends⟩ := ih tails.symm
      exact ⟨rfl, ends⟩

theorem quoteChars_inj {left right rest more : List Char}
    (h : quoteChars left ++ rest = quoteChars right ++ more)
    : left = right ∧ rest = more := by
  simp only [quoteChars, List.cons_append, List.append_assoc, List.nil_append] at h
  exact escaped_inj (List.cons.inj h).2

theorem array_pair_inj {first second first' second' : String}
    (h : array [quote first, quote second] = array [quote first', quote second'])
    : first = first' ∧ second = second' := by
  have chars := congrArg String.toList h
  simp only [array, quote, List.map_cons, List.map_nil, String.toList_ofList,
    List.intercalate_cons_cons, List.intercalate_singleton, List.cons_append, List.append_assoc,
    List.nil_append, List.cons.injEq, true_and] at chars
  obtain ⟨firsts, others⟩ := quoteChars_inj chars
  obtain ⟨seconds, -⟩ := quoteChars_inj (List.cons.inj others).2
  exact ⟨String.toList_inj.mp firsts, String.toList_inj.mp seconds⟩

end JsonText
