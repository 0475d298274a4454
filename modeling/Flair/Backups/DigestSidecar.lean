import Flair.Foundations.Text

/-! The digest sidecar of a backup archive: one line in the `sha256sum` format, how it is
written and how its bytes are read back. Follows `src/lib/backup-artifact.ts`.
-/

namespace Flair.Backups

open Dynamic

abbrev Bytes := List UInt8

/-- `Buffer.from(text, "utf-8")` -/
def utf8 (text : String) : Bytes := text.toList.flatMap String.utf8EncodeChar

-- Writing

def isLowerHex (c : Char) : Bool := ('0' ≤ c && c ≤ '9') || ('a' ≤ c && c ≤ 'f')

/-- `SHA256_HEX` -/
def isSha256Hex (text : String) : Bool := text.toList.length == 64 && text.toList.all isLowerHex

/-- `text.replace(/c/g, written)` -/
def replaceChar (c : Char) (written : List Char) (text : List Char) : List Char :=
  text.flatMap fun d => if d = c then written else [d]

/-- `/[\\\n\r]/.test(archiveName)` -/
def needsEscape (name : String) : Bool :=
  name.toList.any fun c => c = '\\' || c = '\n' || c = '\r'

def escapeName (name : String) : List Char :=
  replaceChar '\r' ['\\', 'r']
    (replaceChar '\n' ['\\', 'n'] (replaceChar '\\' ['\\', '\\'] name.toList))

def formatBackupDigest (sha256 archiveName : String) : Except String String :=
  if isSha256Hex sha256 = false then
    .error "formatBackupDigest: expected a lowercase hex SHA-256 digest"
  else if archiveName = "" then
    .error "formatBackupDigest: expected a non-empty archive file name"
  else if needsEscape archiveName = false then .ok (sha256 ++ "  " ++ archiveName ++ "\n")
  else .ok ("\\" ++ sha256 ++ "  " ++ String.ofList (escapeName archiveName) ++ "\n")

-- Reading

def byteOf (c : Char) : UInt8 := UInt8.ofNat c.toNat

def backslash : UInt8 := 0x5C

def lineFeed : UInt8 := 0x0A

def carriageReturn : UInt8 := 0x0D

def isHexByte (byte : UInt8) : Bool :=
  (0x30 ≤ byte && byte ≤ 0x39) || (0x61 ≤ byte && byte ≤ 0x66)

/-- A match of `DIGEST_LINE`. -/
structure DigestLine where
  marker : Bool
  sha256 : Bytes
  name : Bytes
deriving DecidableEq

/-- What follows the marker: 64 hex digits, two spaces, a name and a line feed at the end. -/
def readDigest (marker : Bool) (rest : Bytes) : Option DigestLine :=
  if (rest.take 64).length = 64 ∧ (rest.take 64).all isHexByte = true then
    match rest.drop 64 with
    | 0x20 :: 0x20 :: line =>
      if line.getLast? = some lineFeed ∧ line.dropLast ≠ []
          ∧ lineFeed ∉ line.dropLast ∧ carriageReturn ∉ line.dropLast then
        some { marker, sha256 := rest.take 64, name := line.dropLast }
      else none
    | _ => none
  else none

/-- `DIGEST_LINE.exec`, over the bytes of the sidecar. -/
def digestLine : Bytes → Option DigestLine
  | [] => none
  | byte :: rest =>
    if byte = backslash then readDigest true rest else readDigest false (byte :: rest)

def isEscaped (byte : UInt8) : Bool :=
  byte = backslash || byte = byteOf 'n' || byte = byteOf 'r'

/-- `ESCAPED_NAME.test`, for a name that is not empty. -/
def escapedName : Bytes → Bool
  | [] => true
  | [byte] => byte != backslash
  | byte :: next :: rest =>
    if byte = backslash then isEscaped next && escapedName rest else escapedName (next :: rest)

/-- `ESCAPE_SEQUENCE.test` -/
def hasEscape : Bytes → Bool
  | [] => false
  | [_] => false
  | byte :: next :: rest => (byte == backslash && isEscaped next) || hasEscape (next :: rest)

def asciiText (bytes : Bytes) : String :=
  String.ofList (bytes.map fun byte => Char.ofNat byte.toNat)

def parseBackupDigest (bytes : Bytes) : Except String String :=
  match digestLine bytes with
  | some line =>
    if ¬ ByteArray.IsValidUTF8 line.name.toByteArray then .error "the file name is not UTF-8"
    else if line.marker = false then
      if line.name.contains backslash then
        .error ("the file name holds a backslash, but the line does not start with the escape "
          ++ "marker \\")
      else .ok (asciiText line.sha256)
    else if escapedName line.name = false ∨ hasEscape line.name = false then
      .error ("the line starts with the escape marker \\, but the file name is not escaped as "
        ++ "\\\\, \\n and \\r")
    else .ok (asciiText line.sha256)
  | none =>
    .error <|
      if bytes = [] then "the file is empty"
      else if bytes.getLast? ≠ some lineFeed then "the line does not end with a line feed"
      else if lineFeed ∈ bytes.dropLast then "the file holds more than one line"
      else "expected 64 lowercase hex characters, two spaces and the archive file name"

-- UTF-8 of the sidecar's characters

variable {c : Char}

theorem utf8EncodeChar_ascii (ascii : c.toNat < 128)
    : String.utf8EncodeChar c = [byteOf c] := by
  have small : c.toNat ≤ 127 := by omega
  simp [String.utf8EncodeChar, byteOf, small]

variable {byte : UInt8}

theorem utf8EncodeChar_other (other : 128 ≤ c.toNat) (member : byte ∈ String.utf8EncodeChar c)
    : 128 ≤ byte.toNat := by
  have large : ¬ c.val.toNat ≤ 127 := by
    change 128 ≤ c.val.toNat at other
    omega
  simp only [String.utf8EncodeChar, large, if_false] at member
  split at member
  · simp only [List.mem_cons, List.not_mem_nil, or_false] at member
    rcases member with rfl | rfl <;> simp [UInt8.toNat_ofNat'] <;> omega
  split at member
  · simp only [List.mem_cons, List.not_mem_nil, or_false] at member
    rcases member with rfl | rfl | rfl <;> simp [UInt8.toNat_ofNat'] <;> omega
  · simp only [List.mem_cons, List.not_mem_nil, or_false] at member
    rcases member with rfl | rfl | rfl | rfl <;> simp [UInt8.toNat_ofNat'] <;> omega

theorem byteOf_toNat (ascii : c.toNat < 128) : (byteOf c).toNat = c.toNat := by
  simp only [byteOf, UInt8.toNat_ofNat']
  omega

variable {d : Char}

theorem byteOf_inj (ascii : c.toNat < 128) (ascii' : d.toNat < 128) (same : byteOf c = byteOf d)
    : c = d := by
  have values := congrArg UInt8.toNat same
  rw [byteOf_toNat ascii, byteOf_toNat ascii'] at values
  exact Char.toNat_inj.mp values

theorem eq_of_mem_utf8EncodeChar (ascii : d.toNat < 128)
    (member : byteOf d ∈ String.utf8EncodeChar c)
    : c = d := by
  by_cases small : c.toNat < 128
  · rw [utf8EncodeChar_ascii small] at member
    exact (byteOf_inj ascii small (List.mem_singleton.mp member)).symm
  · have large := utf8EncodeChar_other (Nat.le_of_not_lt small) member
    rw [byteOf_toNat ascii] at large
    omega

variable {text : List Char}

theorem mem_utf8 (ascii : d.toNat < 128) (member : byteOf d ∈ text.flatMap String.utf8EncodeChar)
    : d ∈ text := by
  obtain ⟨c, inside, byte⟩ := List.mem_flatMap.mp member
  exact eq_of_mem_utf8EncodeChar ascii byte ▸ inside

theorem flatMap_ascii (ascii : ∀ c ∈ text, c.toNat < 128)
    : text.flatMap String.utf8EncodeChar = text.map byteOf := by
  induction text with
  | nil => rfl
  | cons c rest ih =>
    obtain ⟨here, later⟩ := List.forall_mem_cons.mp ascii
    rw [List.flatMap_cons, utf8EncodeChar_ascii here, ih later, List.map_cons]
    rfl

theorem isLowerHex_ascii (hex : isLowerHex c = true)
    : c.toNat < 128 ∧ isHexByte (byteOf c) = true := by
  have bounds : (48 ≤ c.toNat ∧ c.toNat ≤ 57) ∨ (97 ≤ c.toNat ∧ c.toNat ≤ 102) := by
    simp only [isLowerHex, Bool.or_eq_true, Bool.and_eq_true, decide_eq_true_eq,
      Char.le_def, UInt32.le_iff_toNat_le] at hex
    exact hex
  have ascii : c.toNat < 128 := by omega
  refine ⟨ascii, ?_⟩
  have value := byteOf_toNat ascii
  simp only [isHexByte, Bool.or_eq_true, Bool.and_eq_true, decide_eq_true_eq,
    UInt8.le_iff_toNat_le, value]
  exact bounds

theorem asciiText_map_byteOf {text : String} (ascii : ∀ c ∈ text.toList, c.toNat < 128)
    : asciiText (text.toList.map byteOf) = text := by
  have each : text.toList.map (fun c => Char.ofNat (byteOf c).toNat) = text.toList := by
    rw [List.map_congr_left (g := id)]
    · simp
    · intro c member
      rw [byteOf_toNat (ascii c member)]
      exact Char.ofNat_toNat c
  rw [asciiText, List.map_map]
  exact (congrArg String.ofList each).trans (by simp)

-- Reading back what was written

theorem readDigest_line {sha name : Bytes} (marker : Bool) (length : sha.length = 64)
    (hex : sha.all isHexByte = true) (nonempty : name ≠ []) (noFeed : lineFeed ∉ name)
    (noReturn : carriageReturn ∉ name)
    : readDigest marker (sha ++ 0x20 :: 0x20 :: (name ++ [lineFeed]))
      = some { marker, sha256 := sha, name } := by
  have taken : (sha ++ 0x20 :: 0x20 :: (name ++ [lineFeed])).take 64 = sha := by
    rw [← length]
    exact List.take_left
  have dropped : (sha ++ 0x20 :: 0x20 :: (name ++ [lineFeed])).drop 64
      = 0x20 :: 0x20 :: (name ++ [lineFeed]) := by
    rw [← length]
    exact List.drop_left
  simp only [readDigest, taken, dropped, length, hex, and_self, if_true]
  simp [nonempty, noFeed, noReturn]

theorem digestLine_plain {sha name : Bytes} (length : sha.length = 64)
    (hex : sha.all isHexByte = true) (nonempty : name ≠ []) (noFeed : lineFeed ∉ name)
    (noReturn : carriageReturn ∉ name)
    : digestLine (sha ++ 0x20 :: 0x20 :: (name ++ [lineFeed]))
      = some { marker := false, sha256 := sha, name } := by
  cases sha with
  | nil => cases length
  | cons byte rest =>
    have notMarker : byte ≠ backslash := by
      rintro rfl
      simp [isHexByte, backslash] at hex
    have read := readDigest_line false length hex nonempty noFeed noReturn
    simpa [digestLine, notMarker] using read

def escapeOne (c : Char) : List Char :=
  if c = '\\' then ['\\', '\\']
  else if c = '\n' then ['\\', 'n']
  else if c = '\r' then ['\\', 'r']
  else [c]

theorem escapeOne_ne_nil (c : Char) : escapeOne c ≠ [] := by
  unfold escapeOne
  split
  · nofun
  · split
    · nofun
    · split <;> nofun

theorem escapeName_eq (name : String) : escapeName name = name.toList.flatMap escapeOne := by
  unfold escapeName replaceChar
  induction name.toList with
  | nil => rfl
  | cons c rest ih =>
    simp only [List.flatMap_cons, List.flatMap_append, ih]
    congr 1
    unfold escapeOne
    by_cases slash : c = '\\'
    · subst slash
      rfl
    by_cases feed : c = '\n'
    · subst feed
      rfl
    by_cases ret : c = '\r'
    · subst ret
      rfl
    · simp [slash, feed, ret]

variable {rest : Bytes}

theorem escapedName_cons (plain : byte ≠ backslash)
    : escapedName (byte :: rest) = escapedName rest := by
  cases rest with
  | nil => simp [escapedName, plain]
  | cons next more => simp [escapedName, plain]

theorem escapedName_append {first : Bytes} (plain : backslash ∉ first)
    : escapedName (first ++ rest) = escapedName rest := by
  induction first with
  | nil => rfl
  | cons byte more ih =>
    obtain ⟨here, later⟩ := not_or.mp (fun either => plain (List.mem_cons.mpr either))
    rw [List.cons_append, escapedName_cons (fun same => here same.symm), ih later]

theorem escapedName_escape (escaped : isEscaped byte = true)
    : escapedName (backslash :: byte :: rest) = escapedName rest := by
  simp [escapedName, escaped]

theorem hasEscape_append {first : Bytes} (escaped : isEscaped byte = true)
    : hasEscape (first ++ backslash :: byte :: rest) = true := by
  induction first with
  | nil => simp [hasEscape, escaped]
  | cons here more ih =>
    cases more with
    | nil => simp [hasEscape, escaped]
    | cons next others =>
      rw [List.cons_append, List.cons_append] at *
      simp [hasEscape, ih]

theorem escapeOne_bytes (c : Char)
    : (∃ byte, isEscaped byte = true
        ∧ (escapeOne c).flatMap String.utf8EncodeChar = [backslash, byte])
      ∨ (escapeOne c = [c] ∧ c ≠ '\\' ∧ c ≠ '\n' ∧ c ≠ '\r') := by
  by_cases slash : c = '\\'
  · subst slash
    exact .inl ⟨backslash, rfl, rfl⟩
  by_cases feed : c = '\n'
  · subst feed
    exact .inl ⟨byteOf 'n', rfl, rfl⟩
  by_cases ret : c = '\r'
  · subst ret
    exact .inl ⟨byteOf 'r', rfl, rfl⟩
  · exact .inr ⟨by simp [escapeOne, slash, feed, ret], slash, feed, ret⟩

theorem backslash_notMem (plain : c ≠ '\\') : backslash ∉ String.utf8EncodeChar c :=
  fun member => plain (eq_of_mem_utf8EncodeChar (d := '\\') (by decide) member)

theorem escapedName_escaped (name : List Char)
    : escapedName ((name.flatMap escapeOne).flatMap String.utf8EncodeChar) = true := by
  induction name with
  | nil => rfl
  | cons c rest ih =>
    rw [List.flatMap_cons, List.flatMap_append]
    rcases escapeOne_bytes c with ⟨byte, escaped, bytes⟩ | ⟨same, plain, -⟩
    · rw [bytes]
      exact (escapedName_escape escaped).trans ih
    · rw [same, List.flatMap_singleton, escapedName_append (backslash_notMem plain), ih]

theorem hasEscape_escaped {name : List Char}
    (needs : (name.any fun c => c = '\\' || c = '\n' || c = '\r') = true)
    : hasEscape ((name.flatMap escapeOne).flatMap String.utf8EncodeChar) = true := by
  obtain ⟨c, member, special⟩ := List.any_eq_true.mp needs
  obtain ⟨before, after, rfl⟩ := List.append_of_mem member
  rw [List.flatMap_append, List.flatMap_cons, List.flatMap_append, List.flatMap_append]
  rcases escapeOne_bytes c with ⟨byte, escaped, bytes⟩ | ⟨-, slash, feed, ret⟩
  · rw [bytes]
    exact hasEscape_append escaped
  · simp [slash, feed, ret] at special

theorem escaped_control {name : List Char} (control : d = '\n' ∨ d = '\r')
    : d ∉ name.flatMap escapeOne := by
  intro member
  obtain ⟨c, -, inside⟩ := List.mem_flatMap.mp member
  unfold escapeOne at inside
  split at inside
  · rcases control with rfl | rfl <;> simp at inside
  split at inside
  · rcases control with rfl | rfl <;> simp at inside
  split at inside
  · rcases control with rfl | rfl <;> simp at inside
  · obtain rfl := List.mem_singleton.mp inside
    rcases control with rfl | rfl <;> contradiction

theorem utf8_append (first second : String)
    : utf8 (first ++ second) = utf8 first ++ utf8 second := by
  simp [utf8]

theorem utf8_nonempty (nonempty : text ≠ [])
    : text.flatMap String.utf8EncodeChar ≠ [] := by
  cases text with
  | nil => exact absurd rfl nonempty
  | cons c rest => simp

theorem parseBackupDigest_format {sha256 archiveName line : String}
    (written : formatBackupDigest sha256 archiveName = .ok line)
    : parseBackupDigest (utf8 line) = .ok sha256 := by
  unfold formatBackupDigest at written
  split at written
  · cases written
  rename_i isHex
  split at written
  · cases written
  rename_i named
  simp only [Bool.not_eq_false, isSha256Hex, Bool.and_eq_true, beq_iff_eq, List.all_eq_true]
    at isHex
  obtain ⟨length, digits⟩ := isHex
  have ascii : ∀ c ∈ sha256.toList, c.toNat < 128 := fun c member =>
    (isLowerHex_ascii (digits c member)).1
  have shaBytes : utf8 sha256 = sha256.toList.map byteOf := flatMap_ascii ascii
  have shaLength : (sha256.toList.map byteOf).length = 64 := by simpa using length
  have shaHex : (sha256.toList.map byteOf).all isHexByte = true := by
    rw [List.all_map, List.all_eq_true]
    intro c member
    exact (isLowerHex_ascii (digits c member)).2
  have nonempty : archiveName.toList ≠ [] := fun empty =>
    named (String.toList_inj.mp (by simpa using empty))
  split at written
  · rename_i plain
    cases written
    simp only [needsEscape, List.any_eq_false, Bool.or_eq_true,
      decide_eq_true_eq, not_or] at plain
    have line_ : utf8 (sha256 ++ "  " ++ archiveName ++ "\n")
        = sha256.toList.map byteOf ++ 0x20 :: 0x20 :: (utf8 archiveName ++ [lineFeed]) := by
      simp only [utf8_append, shaBytes, List.append_assoc]
      rfl
    have noSlash : backslash ∉ utf8 archiveName := fun member =>
      (plain _ (mem_utf8 (d := '\\') (by decide) member)).1.1 rfl
    have read : digestLine (sha256.toList.map byteOf ++ 0x20 :: 0x20 :: (utf8 archiveName
        ++ [lineFeed])) = _ :=
      digestLine_plain shaLength shaHex (utf8_nonempty nonempty)
        (fun member => (plain _ (mem_utf8 (d := '\n') (by decide) member)).1.2 rfl)
        (fun member => (plain _ (mem_utf8 (d := '\r') (by decide) member)).2 rfl)
    rw [line_, parseBackupDigest, read]
    have valid : ByteArray.IsValidUTF8 (utf8 archiveName).toByteArray :=
      ByteArray.isValidUTF8_utf8Encode
    simp [valid, noSlash, asciiText_map_byteOf ascii]
  · rename_i special
    cases written
    rw [Bool.not_eq_false, needsEscape] at special
    have name : utf8 (String.ofList (escapeName archiveName))
        = (archiveName.toList.flatMap escapeOne).flatMap String.utf8EncodeChar := by
      simp [utf8, escapeName_eq]
    have line_ : utf8 ("\\" ++ sha256 ++ "  " ++ String.ofList (escapeName archiveName) ++ "\n")
        = backslash :: (sha256.toList.map byteOf
          ++ 0x20 :: 0x20 :: ((archiveName.toList.flatMap escapeOne).flatMap String.utf8EncodeChar
            ++ [lineFeed])) := by
      simp only [utf8_append, shaBytes, name, List.append_assoc]
      rfl
    have written : archiveName.toList.flatMap escapeOne ≠ [] := by
      obtain ⟨c, rest, chars⟩ := List.exists_cons_of_ne_nil nonempty
      rw [chars, List.flatMap_cons]
      exact List.append_ne_nil_of_left_ne_nil (escapeOne_ne_nil c) _
    have read := readDigest_line true shaLength shaHex (utf8_nonempty written)
      (fun member => escaped_control (.inl rfl) (mem_utf8 (d := '\n') (by decide) member))
      (fun member => escaped_control (.inr rfl) (mem_utf8 (d := '\r') (by decide) member))
    have valid : ByteArray.IsValidUTF8
        ((archiveName.toList.flatMap escapeOne).flatMap String.utf8EncodeChar).toByteArray :=
      ByteArray.isValidUTF8_utf8Encode
    rw [line_, parseBackupDigest, digestLine, if_pos rfl, read]
    simp [valid, escapedName_escaped, hasEscape_escaped special, asciiText_map_byteOf ascii]

theorem formatBackupDigest_total {sha256 archiveName : String} (hex : isSha256Hex sha256 = true)
    (named : archiveName ≠ "")
    : ∃ line, formatBackupDigest sha256 archiveName = .ok line := by
  unfold formatBackupDigest
  rw [if_neg (by simp [hex]), if_neg named]
  split
  · exact ⟨_, rfl⟩
  · exact ⟨_, rfl⟩

end Flair.Backups
