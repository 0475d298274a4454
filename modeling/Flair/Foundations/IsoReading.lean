import Flair.Foundations.IsoTime
import Mathlib.Data.List.Basic

/-! The ISO text of an instant reads back as that instant. -/

namespace IsoTime

-- The calendar

def yearOfEra (day : Int) : Int := (day - day / 1460 + day / 36524 - day / 146096) / 365

def daysBefore (year : Int) : Int := 365 * year + year / 4 - year / 100

theorem century_of_yearOfEra {day : Int} (first : 0 ≤ day) (last : day < 146097)
    : day = 146096
      ∨ (day / 146096 = 0 ∧ day / 36524 < 4 ∧ yearOfEra day / 100 = day / 36524) := by
  unfold yearOfEra
  have centuries : day / 36524 = 0 ∨ day / 36524 = 1 ∨ day / 36524 = 2 ∨ day / 36524 = 3
      ∨ day = 146096 := by
    omega
  rcases centuries with century | century | century | century | century
  all_goals omega

theorem yearOfEra_bounds {day : Int} (first : 0 ≤ day) (last : day < 146097)
    : 0 ≤ yearOfEra day ∧ yearOfEra day < 400
      ∧ 0 ≤ day - daysBefore (yearOfEra day) ∧ day - daysBefore (yearOfEra day) ≤ 365 := by
  rcases century_of_yearOfEra first last with rfl | ⟨leap, centuries, century⟩
  · decide
  have lower : 0 ≤ yearOfEra day := by
    unfold yearOfEra
    omega
  have upper : yearOfEra day < 400 := by
    unfold yearOfEra
    omega
  have near : yearOfEra day / 4 - 1 ≤ day / 1460 ∧ day / 1460 ≤ yearOfEra day / 4 + 1 := by
    unfold yearOfEra
    omega
  have defined : yearOfEra day = (day - day / 1460 + day / 36524 - day / 146096) / 365 := rfl
  refine ⟨lower, upper, ?_⟩
  unfold daysBefore
  generalize yearOfEra day = year at *
  constructor
  · have quads : year / 4 ≤ day / 1460 ∨ day / 1460 = year / 4 - 1 := by omega
    rcases quads with quads | quads
    · omega
    have few : day / 36524 = 0 ∨ day / 36524 = 1 ∨ day / 36524 = 2 ∨ day / 36524 = 3 := by
      omega
    rcases few with few | few | few | few
    all_goals omega
  · omega

def dateOf (era year dayOfYear : Int) : Int × Int × Int :=
  let monthFromMarch := (5 * dayOfYear + 2) / 153
  let day := dayOfYear - (153 * monthFromMarch + 2) / 5 + 1
  let month := if monthFromMarch < 10 then monthFromMarch + 3 else monthFromMarch - 9
  (if month ≤ 2 then year + era * 400 + 1 else year + era * 400, month, day)

theorem dateOf_spec {era year dayOfYear : Int} (lower : 0 ≤ year) (upper : year < 400)
    (first : 0 ≤ dayOfYear) (last : dayOfYear ≤ 365)
    : let (civilYear, month, day) := dateOf era year dayOfYear
      daysFromCivil civilYear month day = era * 146097 + (daysBefore year + dayOfYear) - 719468
      ∧ 1 ≤ month ∧ month ≤ 12 ∧ 1 ≤ day ∧ day ≤ 31
      ∧ era * 400 ≤ civilYear ∧ civilYear ≤ era * 400 + 400 := by
  simp only [dateOf]
  have months : 0 ≤ (5 * dayOfYear + 2) / 153 ∧ (5 * dayOfYear + 2) / 153 ≤ 11 := by omega
  have days : 1 ≤ dayOfYear - (153 * ((5 * dayOfYear + 2) / 153) + 2) / 5 + 1
      ∧ dayOfYear - (153 * ((5 * dayOfYear + 2) / 153) + 2) / 5 + 1 ≤ 31 := by
    omega
  generalize (5 * dayOfYear + 2) / 153 = month at months days ⊢
  unfold daysFromCivil daysBefore
  by_cases early : month < 10
  · have spring : ¬ month + 3 ≤ 2 := by omega
    have late : 2 < month + 3 := by omega
    have inEra : (year + era * 400) / 400 = era := by omega
    simp only [early, spring, late, if_true, if_false, inEra]
    omega
  · have winter : month - 9 ≤ 2 := by omega
    have late : ¬ 2 < month - 9 := by omega
    have inEra : (year + era * 400 + 1 - 1) / 400 = era := by omega
    simp only [early, winter, late, if_true, if_false, inEra]
    omega

theorem civilFromDays_spec (days : Int)
    : let (year, month, day) := civilFromDays days
      daysFromCivil year month day = days ∧ 1 ≤ month ∧ month ≤ 12 ∧ 1 ≤ day ∧ day ≤ 31
      ∧ (days + 719468) / 146097 * 400 ≤ year
      ∧ year ≤ (days + 719468) / 146097 * 400 + 400 := by
  have inEra : 0 ≤ days + 719468 - (days + 719468) / 146097 * 146097
      ∧ days + 719468 - (days + 719468) / 146097 * 146097 < 146097 := by
    omega
  obtain ⟨lower, upper, first, last⟩ := yearOfEra_bounds inEra.1 inEra.2
  have date : civilFromDays days
      = dateOf ((days + 719468) / 146097)
        (yearOfEra (days + 719468 - (days + 719468) / 146097 * 146097))
        (days + 719468 - (days + 719468) / 146097 * 146097
          - daysBefore (yearOfEra (days + 719468 - (days + 719468) / 146097 * 146097))) := rfl
  rw [date]
  have spec := @dateOf_spec ((days + 719468) / 146097) _ _ lower upper first last
  refine ⟨?_, spec.2⟩
  rw [spec.1]
  omega

-- Digits

theorem readDigits_append {digits : List Char} (all : ∀ c ∈ digits, c.isDigit = true)
    (rest : List Char)
    : readDigits digits.length (digits ++ rest) = some (Nat.ofDigitChars 10 digits 0, rest) := by
  induction digits with
  | nil => rfl
  | cons c digits ih =>
    have digit := all c List.mem_cons_self
    have later := ih fun other member => all other (List.mem_cons_of_mem _ member)
    have high : Nat.ofDigitChars 10 digits (c.toNat - '0'.toNat)
        = 10 ^ digits.length * (c.toNat - '0'.toNat) + Nat.ofDigitChars 10 digits 0 :=
      Nat.ofDigitChars_eq_ofDigitChars_zero
    simp only [List.length_cons, List.cons_append, readDigits, digit, if_true, later,
      Option.map_some]
    rw [Nat.ofDigitChars_cons, Nat.mul_zero, Nat.zero_add, high, Nat.mul_comm]

def paddedDigits (width amount : Nat) : List Char :=
  List.replicate (width - (Nat.toDigits 10 amount).length) '0' ++ Nat.toDigits 10 amount

theorem toList_padded (width amount : Nat)
    : (padded width amount).toList = paddedDigits width amount := by
  have text : toString amount = String.ofList (Nat.toDigits 10 amount) :=
    Nat.repr_eq_ofList_toDigits
  simp [padded, paddedDigits, text]

variable {width amount : Nat}

theorem isDigit_of_mem_padded {c : Char} (member : c ∈ paddedDigits width amount)
    : c.isDigit = true := by
  rcases List.mem_append.mp member with zero | digit
  · rw [(List.mem_replicate.mp zero).2]
    rfl
  · exact Nat.isDigit_of_mem_toDigits (by decide) (by decide) digit

theorem length_paddedDigits (some_width : 0 < width) (fits : amount < 10 ^ width)
    : (paddedDigits width amount).length = width := by
  have short := (Nat.length_toDigits_le_iff (by decide : 1 < 10) some_width).mpr fits
  simp only [paddedDigits, List.length_append, List.length_replicate]
  omega

theorem ofDigitChars_paddedDigits (width amount : Nat)
    : Nat.ofDigitChars 10 (paddedDigits width amount) 0 = amount := by
  rw [paddedDigits, Nat.ofDigitChars_append, Nat.ofDigitChars_replicate_zero, Nat.mul_zero,
    Nat.ofDigitChars_ten_toDigits]

theorem readDigits_padded (some_width : 0 < width) (fits : amount < 10 ^ width) (rest : List Char)
    : readDigits width (paddedDigits width amount ++ rest) = some (amount, rest) := by
  have digits : ∀ c ∈ paddedDigits width amount, c.isDigit = true :=
    fun c => isDigit_of_mem_padded
  have reads := readDigits_append digits rest
  rwa [length_paddedDigits some_width fits, ofDigitChars_paddedDigits] at reads

-- The text

def yearChars (year : Int) : List Char :=
  if 0 ≤ year ∧ year ≤ 9999 then paddedDigits 4 year.toNat
  else if year < 0 then '-' :: paddedDigits 6 (-year).toNat
  else '+' :: paddedDigits 6 year.toNat

theorem toList_yearText (year : Int) : (yearText year).toList = yearChars year := by
  unfold yearText yearChars
  split
  · exact toList_padded _ _
  · split
    · simp [toList_padded]
    · simp [toList_padded]

theorem isDigit_of_padded_cons (some_width : 0 < width) (fits : amount < 10 ^ width) {c : Char}
    {rest tail : List Char} (text : paddedDigits width amount ++ rest = c :: tail)
    : c.isDigit = true := by
  have length := length_paddedDigits some_width fits
  cases digits : paddedDigits width amount with
  | nil =>
    rw [digits, List.length_nil] at length
    omega
  | cons first others =>
    rw [digits, List.cons_append] at text
    obtain ⟨rfl, -⟩ := List.cons.inj text
    exact isDigit_of_mem_padded (digits ▸ List.mem_cons_self)

theorem readYear_yearChars {year : Int} (early : -1000000 < year) (late : year < 1000000)
    (rest : List Char)
    : readYear (yearChars year ++ rest) = some (year, rest) := by
  unfold yearChars
  split
  · rename_i plain
    have fits : year.toNat < 10 ^ 4 := by omega
    have whole : (year.toNat : Int) = year := by omega
    unfold readYear
    split
    · rename_i text
      exact absurd (isDigit_of_padded_cons (by decide) fits text) (by decide)
    · rename_i text
      exact absurd (isDigit_of_padded_cons (by decide) fits text) (by decide)
    · simp only [readDigits_padded (by decide) fits, Option.map_some, whole]
  · split
    · rename_i negative
      have fits : (-year).toNat < 10 ^ 6 := by omega
      have nonzero : (-year).toNat ≠ 0 := by omega
      have whole : -((-year).toNat : Int) = year := by omega
      simp only [List.cons_append, readYear, readDigits_padded (by decide) fits,
        Option.bind_some, nonzero, if_false, whole]
    · have fits : year.toNat < 10 ^ 6 := by omega
      have whole : (year.toNat : Int) = year := by omega
      simp only [List.cons_append, readYear, readDigits_padded (by decide) fits,
        Option.map_some, whole]

theorem fractionMillis_padded {millis : Nat} (fits : millis < 10 ^ 3)
    : fractionMillis (paddedDigits 3 millis) = millis := by
  have length := length_paddedDigits (by decide) fits
  have value := ofDigitChars_paddedDigits 3 millis
  match digits : paddedDigits 3 millis, length with
  | [a, b, c], _ =>
    rw [digits] at value
    simp only [Nat.ofDigitChars_cons, Nat.ofDigitChars_nil] at value
    simp only [fractionMillis, List.map_cons, List.map_nil]
    omega

theorem readSeconds_padded {second millis : Nat} (short : second < 10 ^ 2)
    (fits : millis < 10 ^ 3)
    : readSeconds (':' :: (paddedDigits 2 second ++ '.' :: (paddedDigits 3 millis ++ ['Z'])))
      = some (second, millis, ['Z']) := by
  have digits : ∀ c ∈ paddedDigits 3 millis, c.isDigit = true :=
    fun c => isDigit_of_mem_padded
  have taken : (paddedDigits 3 millis ++ ['Z']).takeWhile Char.isDigit
      = paddedDigits 3 millis := by
    rw [List.takeWhile_append_of_pos digits]
    simp
  have dropped : (paddedDigits 3 millis ++ ['Z']).dropWhile Char.isDigit = ['Z'] := by
    rw [List.dropWhile_append_of_pos digits]
    rfl
  have nonempty : paddedDigits 3 millis ≠ [] := by
    intro empty
    have length := length_paddedDigits (by decide) fits
    rw [empty] at length
    cases length
  simp only [readSeconds, readDigits_padded (by decide) short, Option.bind_some, taken, dropped,
    nonempty, if_false, fractionMillis_padded fits]

def Parts.text (parts : Parts) : String :=
  yearText parts.year ++ "-" ++ padded 2 parts.month ++ "-" ++ padded 2 parts.day
    ++ "T" ++ padded 2 parts.hour ++ ":" ++ padded 2 parts.minute
    ++ ":" ++ padded 2 parts.second ++ "." ++ padded 3 parts.millis ++ "Z"

structure Parts.Fits (parts : Parts) : Prop where
  early : -1000000 < parts.year
  late : parts.year < 1000000
  month : parts.month < 10 ^ 2
  day : parts.day < 10 ^ 2
  hour : parts.hour < 10 ^ 2
  minute : parts.minute < 10 ^ 2
  second : parts.second < 10 ^ 2
  millis : parts.millis < 10 ^ 3

theorem readChar_cons (c : Char) (rest : List Char) : readChar c (c :: rest) = some rest := by
  simp [readChar]

theorem readTimestamp_text {parts : Parts} (fits : parts.Fits)
    : readTimestamp parts.text = some parts := by
  have text : parts.text.toList
      = yearChars parts.year ++ '-' :: (paddedDigits 2 parts.month ++ '-'
        :: (paddedDigits 2 parts.day ++ 'T' :: (paddedDigits 2 parts.hour ++ ':'
        :: (paddedDigits 2 parts.minute ++ ':' :: (paddedDigits 2 parts.second ++ '.'
        :: (paddedDigits 3 parts.millis ++ ['Z'])))))) := by
    simp [Parts.text, toList_padded, toList_yearText]
  simp only [readTimestamp, text, readYear_yearChars fits.early fits.late,
    readDigits_padded (by decide) fits.month, readDigits_padded (by decide) fits.day,
    readDigits_padded (by decide) fits.hour, readDigits_padded (by decide) fits.minute,
    readSeconds_padded fits.second fits.millis, readChar_cons, Option.bind_eq_bind,
    Option.bind_some, true_or, if_true]

variable {millis : Int}

theorem exists_parts_of_toISOString {text : String} (h : toISOString millis = some text)
    : ∃ parts : Parts, text = parts.text ∧ parts.Fits ∧ parts.instant = some millis
      ∧ parts.onCalendar = true := by
  unfold toISOString at h
  split at h
  · cases h
  rename_i within
  dsimp only at h
  have bounds : -maxMillis ≤ millis ∧ millis ≤ maxMillis := by omega
  have spec := civilFromDays_spec (millis / millisPerDay)
  have offset : 0 ≤ millis - millis / millisPerDay * millisPerDay
      ∧ millis - millis / millisPerDay * millisPerDay < 86400000 := by
    unfold millisPerDay
    omega
  have daysInRange : -100000000 ≤ millis / millisPerDay ∧ millis / millisPerDay ≤ 100000000 := by
    unfold millisPerDay maxMillis at *
    omega
  generalize millis / millisPerDay = days at h spec offset daysInRange
  generalize dated : civilFromDays days = date at h spec
  obtain ⟨year, month, day⟩ := date
  obtain ⟨isDay, firstMonth, lastMonth, firstDay, lastDay, fromYear, toYear⟩ := spec
  obtain ⟨rest, isRest⟩ : ∃ rest : Nat, (rest : Int) = millis - days * millisPerDay :=
    ⟨(millis - days * millisPerDay).toNat, Int.toNat_of_nonneg offset.1⟩
  have short : rest < 86400000 := by omega
  rw [← isRest, Int.toNat_natCast] at h
  let parts : Parts := {
    year
    month := month.toNat
    day := day.toNat
    hour := rest / 3600000
    minute := rest / 60000 % 60
    second := rest / 1000 % 60
    millis := rest % 1000 }
  have same : text = parts.text := (Option.some.inj h).symm
  have fits : parts.Fits :=
    { early := by simp only [parts]; omega
      late := by simp only [parts]; omega
      month := by simp only [parts]; omega
      day := by simp only [parts]; omega
      hour := by simp only [parts]; omega
      minute := by simp only [parts]; omega
      second := by simp only [parts]; omega
      millis := by simp only [parts]; omega }
  have months : ((month.toNat : Nat) : Int) = month := Int.toNat_of_nonneg (by omega)
  have dayOfMonth : ((day.toNat : Nat) : Int) = day := Int.toNat_of_nonneg (by omega)
  have whole : days * millisPerDay + (rest / 3600000 : Nat) * 3600000
      + (rest / 60000 % 60 : Nat) * 60000 + (rest / 1000 % 60 : Nat) * 1000
      + (rest % 1000 : Nat) = millis := by
    omega
  refine ⟨parts, same, fits, ?_, ?_⟩
  rotate_left
  · simp only [Parts.onCalendar, parts, months, dayOfMonth, isDay, dated, decide_true]
  simp only [Parts.instant, parts, months, dayOfMonth, isDay, whole]
  rw [if_pos]
  refine ⟨⟨?_, ?_, ?_, ?_⟩, Or.inl ⟨?_, ?_, ?_⟩, bounds⟩
  all_goals omega

/-- `Date.parse` of a text in the ISO format. -/
def parseIso (text : String) : Option Int := (readTimestamp text).bind Parts.instant

theorem parseIso_toISOString {text : String} (h : toISOString millis = some text)
    : parseIso text = some millis := by
  obtain ⟨parts, rfl, fits, instant, -⟩ := exists_parts_of_toISOString h
  rw [parseIso, readTimestamp_text fits, Option.bind_some, instant]

theorem zone_mem_toISOString {text : String} (h : toISOString millis = some text)
    : 'Z' ∈ text.toList := by
  obtain ⟨parts, rfl, -⟩ := exists_parts_of_toISOString h
  simp [Parts.text]

end IsoTime
