import Mathlib.Data.List.DropRight

/-! String operations of a dynamically typed language: trimming, splitting at a character
and the decimal text of a count.
-/

namespace Dynamic

/-- The characters `trim` removes: white space and line terminators. -/
def isSpace (c : Char) : Bool :=
  [0x9, 0xA, 0xB, 0xC, 0xD, 0x20, 0xA0, 0x1680, 0x2028, 0x2029, 0x202F, 0x205F, 0x3000,
    0xFEFF].contains c.toNat
  || (0x2000 ≤ c.toNat && c.toNat ≤ 0x200A)

/-- `text.trim()`. -/
def trim (text : String) : String :=
  String.ofList ((text.toList.dropWhile isSpace).reverse.dropWhile isSpace).reverse

theorem trim_trim (text : String) : trim (trim text) = trim text := by
  have spelled : ∀ text : String,
      trim text = String.ofList ((text.toList.dropWhile isSpace).rdropWhile isSpace) :=
    fun _ => rfl
  have front : ((text.toList.dropWhile isSpace).rdropWhile isSpace).dropWhile isSpace
      = (text.toList.dropWhile isSpace).rdropWhile isSpace := by
    rw [List.dropWhile_eq_self_iff]
    intro inside
    have kept := List.rdropWhile_prefix isSpace (text.toList.dropWhile isSpace)
    have first := List.dropWhile_get_zero_not isSpace text.toList
      (inside.trans_le kept.length_le)
    rwa [List.get_eq_getElem, ← kept.getElem inside] at first
  rw [spelled (trim text), spelled text, String.toList_ofList, front, List.rdropWhile_idempotent]

/-- `text.split(separator)` at one character. -/
def splitAtChar (separator : Char) (text : String) : List String :=
  (text.toList.splitOn separator).map String.ofList

theorem split_last {α : Type} {separator : α} {before before' rest rest' : List α}
    (h : before ++ separator :: rest = before' ++ separator :: rest')
    (last : separator ∉ rest) (last' : separator ∉ rest')
    : before = before' ∧ rest = rest' := by
  rcases List.append_eq_append_iff.mp h with ⟨more, rfl, tails⟩ | ⟨more, rfl, tails⟩
  · cases more with
    | nil => exact ⟨by simp, (List.cons.inj tails).2⟩
    | cons c others =>
      have inRest : separator ∈ rest := by
        rw [(List.cons.inj tails).2]
        simp
      exact absurd inRest last
  · cases more with
    | nil => exact ⟨by simp, (List.cons.inj tails).2.symm⟩
    | cons c others =>
      have inRest : separator ∈ rest' := by
        rw [(List.cons.inj tails).2]
        simp
      exact absurd inRest last'

/-- The UTF-16 code units of a text; a character past the basic plane takes two. -/
def utf16Units (text : String) : List Nat :=
  text.toList.flatMap fun c =>
    if 0x10000 ≤ c.toNat then
      [0xD800 + (c.toNat - 0x10000) / 0x400, 0xDC00 + (c.toNat - 0x10000) % 0x400]
    else [c.toNat]

/-- `text.length` -/
def codeUnitCount (text : String) : Nat := (utf16Units text).length

example : (splitAtChar ',' " a,,b ").map trim = ["a", "", "b"] := by decide

end Dynamic
