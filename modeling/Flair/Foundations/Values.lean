import Mathlib.Algebra.Group.Int.Defs
import Mathlib.Algebra.GroupWithZero.Nat
import Mathlib.Data.List.Lex
import Mathlib.Data.Rat.Defs

/-! Values of a dynamically typed language: the JSON kinds, strict equality, truthiness
and the UTF-16 order of strings. An absent field (`undefined`) is `none` of `Option Value`.
-/

namespace Dynamic

/-- A JSON value. The fields of an object value are listed in one fixed key order, so Lean
equality is the structural equality that ignores how an object was written down.
-/
inductive Value where
  | null
  | bool (flag : Bool)
  | num (amount : Rat)
  | str (text : String)
  | arr (items : List Value)
  | obj (fields : List (String × Value))
deriving Inhabited

namespace Value

mutual
def decEq : (left right : Value) → Decidable (left = right)
  | .null, .null => isTrue rfl
  | .bool a, .bool b => decidable_of_iff (a = b) (by simp)
  | .num a, .num b => decidable_of_iff (a = b) (by simp)
  | .str a, .str b => decidable_of_iff (a = b) (by simp)
  | .arr a, .arr b => @decidable_of_iff _ (a = b) (by simp) (decEqItems a b)
  | .obj a, .obj b => @decidable_of_iff _ (a = b) (by simp) (decEqFields a b)
  | .null, .bool _ | .null, .num _ | .null, .str _ | .null, .arr _ | .null, .obj _
  | .bool _, .null | .bool _, .num _ | .bool _, .str _ | .bool _, .arr _ | .bool _, .obj _
  | .num _, .null | .num _, .bool _ | .num _, .str _ | .num _, .arr _ | .num _, .obj _
  | .str _, .null | .str _, .bool _ | .str _, .num _ | .str _, .arr _ | .str _, .obj _
  | .arr _, .null | .arr _, .bool _ | .arr _, .num _ | .arr _, .str _ | .arr _, .obj _
  | .obj _, .null | .obj _, .bool _ | .obj _, .num _ | .obj _, .str _ | .obj _, .arr _ =>
    isFalse (by simp)

def decEqItems : (left right : List Value) → Decidable (left = right)
  | [], [] => isTrue rfl
  | [], _ :: _ => isFalse (by simp)
  | _ :: _, [] => isFalse (by simp)
  | x :: xs, y :: ys =>
    @decidable_of_iff _ (x = y ∧ xs = ys) (by simp)
      (@instDecidableAnd _ _ (decEq x y) (decEqItems xs ys))

def decEqFields : (left right : List (String × Value)) → Decidable (left = right)
  | [], [] => isTrue rfl
  | [], _ :: _ => isFalse (by simp)
  | _ :: _, [] => isFalse (by simp)
  | (k, x) :: xs, (l, y) :: ys =>
    @decidable_of_iff _ (k = l ∧ x = y ∧ xs = ys) (by simp [and_assoc])
      (@instDecidableAnd _ _ _ (@instDecidableAnd _ _ (decEq x y) (decEqFields xs ys)))
end

instance : DecidableEq Value := decEq

end Value

/-- `value[field]` of a parsed value; only an object has own fields. -/
def Value.member : Value → String → Option Value
  | .obj fields, field => fields.lookup field
  | _, _ => none

/-- An array of the language: its length is an unsigned 32-bit integer. -/
structure Sequence (α : Type) where
  items : List α
  bounded : items.length < 2 ^ 32

/-- `Number.isSafeInteger(value)` for a count: the count, when the value is one. -/
def safeCount : Option Value → Option Nat
  | some (.num amount) =>
    if amount.den = 1 ∧ 0 ≤ amount.num ∧ amount.num < 2 ^ 53 then some amount.num.toNat
    else none
  | _ => none

@[simp] theorem safeCount_num (count : Nat) (small : count < 2 ^ 53)
    : safeCount (some (.num count)) = some count := by
  have bound : (count : Int) < 9007199254740992 := by omega
  simp [safeCount, bound]

def isReference : Option Value → Bool
  | some (.arr _) | some (.obj _) => true
  | _ => false

/-- `a === b` for operands read from two separately built values: two arrays or objects
are then never the same reference.
-/
def strictEquals (left right : Option Value) : Bool :=
  !isReference left && decide (left = right)

theorem eq_of_strictEquals {left right : Option Value} (h : strictEquals left right = true)
    : left = right := by
  simp only [strictEquals, Bool.and_eq_true, decide_eq_true_eq] at h
  exact h.2

@[simp] theorem strictEquals_str (value : Option Value) (text : String)
    : strictEquals value (some (.str text)) = decide (value = some (.str text)) := by
  by_cases h : value = some (.str text)
  · simp [h, strictEquals, isReference]
  · simp [h, strictEquals]

/-- `value == null`: absent or null. -/
def isNullish : Option Value → Bool
  | none | some .null => true
  | _ => false

/-- The truth value an `&&`, `||` or `if` reads. -/
def truthy : Option Value → Bool
  | none | some .null => false
  | some (.bool flag) => flag
  | some (.num amount) => amount != 0
  | some (.str text) => text != ""
  | some (.arr _) | some (.obj _) => true

def asString : Option Value → Option String
  | some (.str text) => some text
  | _ => none

theorem asString_eq_some {value : Option Value} {text : String}
    : asString value = some text ↔ value = some (.str text) := by
  unfold asString
  split <;> simp_all

-- Computations that may fail

theorem bind_eq_ok {ε α β : Type} {first : Except ε α} {next : α → Except ε β} {result : β}
    : (first >>= next) = .ok result ↔ ∃ value, first = .ok value ∧ next value = .ok result := by
  cases first <;> simp [bind, Except.bind]

-- String order

/-- A rank of characters that orders them as their UTF-16 code units do: the characters
above the basic plane start with a surrogate and so lie between U+D7FF and U+E000.
-/
def codeUnitRank (c : Char) : Nat :=
  if c.toNat < 0xD800 then c.toNat
  else if 0x10000 ≤ c.toNat then c.toNat - 0x10000 + 0xD800
  else c.toNat + 0x100000

theorem codeUnitRank_injective : Function.Injective codeUnitRank := by
  intro a b h
  have ha := a.valid
  have hb := b.valid
  have hn : a.toNat = b.toNat := by
    unfold codeUnitRank at h
    simp only [Char.toNat, UInt32.isValidChar, Nat.isValidChar] at *
    split at h <;> split at h <;> (try split at h) <;> (try split at h) <;> omega
  exact Char.toNat_inj.mp hn

def codeUnits (text : String) : List Nat := text.toList.map codeUnitRank

theorem codeUnits_injective : Function.Injective codeUnits := by
  intro a b h
  exact String.toList_injective (List.map_injective_iff.mpr codeUnitRank_injective h)

/-- `left < right` on strings: lexicographic in UTF-16 code units. -/
def textLt (left right : String) : Prop := codeUnits left < codeUnits right

instance (left right : String) : Decidable (textLt left right) :=
  inferInstanceAs (Decidable (codeUnits left < codeUnits right))

theorem textLt_irrefl (text : String) : ¬ textLt text text := lt_irrefl (codeUnits text)

theorem textLt_trans {a b c : String} (hab : textLt a b) (hbc : textLt b c) : textLt a c :=
  lt_trans hab hbc

theorem textLt_trichotomy (a b : String) : textLt a b ∨ a = b ∨ textLt b a := by
  rcases lt_trichotomy (codeUnits a) (codeUnits b) with h | h | h
  · exact Or.inl h
  · exact Or.inr (Or.inl (codeUnits_injective h))
  · exact Or.inr (Or.inr h)

theorem textLt_asymm {a b : String} (h : textLt a b) : ¬ textLt b a := lt_asymm h

end Dynamic
