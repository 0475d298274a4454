import Flair.Foundations.JsonReader
import Mathlib.Logic.Equiv.List

/-! Bytes as hexadecimal text: written in lower case, and decoded in either case up to the first
pair that is not hexadecimal.
-/

namespace JsonText

def hexChars (bytes : List (Fin 256)) : List Char :=
  bytes.flatMap fun byte : Fin 256 => [hexDigit (byte.val / 16), hexDigit (byte.val % 16)]

/-- `Buffer.from(text, "hex")`: the bytes before the first pair that is not hexadecimal. -/
def decodeHex : List Char → List Nat
  | high :: low :: rest =>
    match hexValue high, hexValue low with
    | some high, some low => (high * 16 + low) :: decodeHex rest
    | _, _ => []
  | _ => []

theorem hexValue_hexDigit : ∀ digit < 16, hexValue (hexDigit digit) = some digit := by decide

theorem hexDigit_of_code : ∀ code < 103, ∀ digit, hexValue (Char.ofNat code) = some digit
    → digit < 16 ∧ (Char.ofNat code).toLower = hexDigit digit := by
  intro code small
  have each : ∀ code < 103, (hexValue (Char.ofNat code)).all
      (fun digit => digit < 16 && (Char.ofNat code).toLower == hexDigit digit) = true := by decide
  intro digit found
  have one := each code small
  rw [found] at one
  simpa using one

theorem lower_of_hexValue {c : Char} {digit : Nat} (h : hexValue c = some digit)
    : digit < 16 ∧ c.toLower = hexDigit digit := by
  have small : c.toNat < 103 := by
    unfold hexValue at h
    split at h
    · rename_i range
      exact Nat.lt_of_le_of_lt range.2 (by decide)
    split at h
    · rename_i range
      exact Nat.lt_of_le_of_lt range.2 (by decide)
    split at h
    · rename_i range
      exact Nat.lt_of_le_of_lt range.2 (by decide)
    · cases h
  rw [← Char.ofNat_toNat c] at h ⊢
  exact hexDigit_of_code _ small _ h

theorem length_hexChars (bytes : List (Fin 256)) : (hexChars bytes).length = 2 * bytes.length := by
  induction bytes with
  | nil => rfl
  | cons byte rest ih =>
    rw [hexChars, List.flatMap_cons, List.length_append, ← hexChars, ih, List.length_cons]
    simp only [List.length_cons, List.length_nil]
    omega

theorem decodeHex_hexChars (bytes : List (Fin 256))
    : decodeHex (hexChars bytes) = bytes.map Fin.val := by
  induction bytes with
  | nil => rfl
  | cons byte rest ih =>
    have high := hexValue_hexDigit (byte.val / 16) (by omega)
    have low := hexValue_hexDigit (byte.val % 16) (by omega)
    change decodeHex (hexDigit (byte.val / 16) :: hexDigit (byte.val % 16) :: hexChars rest) = _
    simp only [decodeHex, high, low, ih, List.map_cons, List.cons.injEq, and_true]
    omega

theorem hexChars_injective : Function.Injective hexChars := by
  intro left right same
  have bytes := congrArg decodeHex same
  rw [decodeHex_hexChars, decodeHex_hexChars] at bytes
  exact List.map_injective_iff.mpr (fun _ _ => Fin.ext) bytes

theorem lower_of_decodeHex {chars : List Char} {bytes : List (Fin 256)}
    (decoded : decodeHex chars = bytes.map Fin.val) (length : chars.length = 2 * bytes.length)
    : chars.map Char.toLower = hexChars bytes := by
  induction bytes generalizing chars with
  | nil => rw [List.eq_nil_of_length_eq_zero length]; rfl
  | cons byte rest ih =>
    match chars with
    | [] | [_] =>
      simp only [List.length_cons, List.length_nil] at length
      omega
    | high :: low :: others =>
      simp only [decodeHex] at decoded
      split at decoded
      · rename_i first second highFound lowFound
        obtain ⟨byteEq, tails⟩ := List.cons.inj decoded
        obtain ⟨highSmall, highLower⟩ := lower_of_hexValue highFound
        obtain ⟨lowSmall, lowLower⟩ := lower_of_hexValue lowFound
        have firstEq : first = byte.val / 16 := by omega
        have secondEq : second = byte.val % 16 := by omega
        rw [List.map_cons, List.map_cons, highLower, lowLower, firstEq, secondEq,
          ih tails (by simp only [List.length_cons] at length; omega)]
        rfl
      · cases decoded

/-- As many zero bytes as the text's number among all texts. -/
def unaryBytes (text : String) : List (Fin 256) :=
  List.replicate (Encodable.encode (text.toList.map Char.toNat)) 0

theorem unaryBytes_injective : Function.Injective unaryBytes := by
  intro left right same
  have lengths := congrArg List.length same
  rw [unaryBytes, unaryBytes, List.length_replicate, List.length_replicate] at lengths
  have codes := Encodable.encode_injective lengths
  exact String.toList_inj.mp (List.map_injective_iff.mpr (fun _ _ => Char.toNat_inj.mp) codes)

end JsonText
