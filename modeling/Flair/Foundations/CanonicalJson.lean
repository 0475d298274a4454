import Mathlib.Data.Finset.Sort
import Flair.Foundations.JsonText
import Flair.Foundations.Objects

/-! The canonical JSON text of a value: objects with their keys in order and no blanks. The
text determines the value, so signing or hashing it binds every field.
-/

namespace Dynamic

-- Writing

def numberChars : List Char := "0123456789+-.e".toList

/-- How numbers are written: each in its own way, from the characters of numbers. -/
structure NumberText where
  write : Rat → List Char
  injective : Function.Injective write
  nonempty : ∀ amount, write amount ≠ []
  chars : ∀ amount, ∀ c ∈ write amount, c ∈ numberChars

mutual

/-- `JSON.stringify` of a value whose objects list their keys in order. -/
def Value.text (numbers : NumberText) : Value → List Char
  | .null => ['n', 'u', 'l', 'l']
  | .bool true => ['t', 'r', 'u', 'e']
  | .bool false => ['f', 'a', 'l', 's', 'e']
  | .num amount => numbers.write amount
  | .str text => JsonText.quoteChars text.toList
  | .arr items => '[' :: itemsText numbers [] items
  | .obj fields => '\x7b' :: fieldsText numbers [] fields

/-- The items of an array up to its closing bracket; `lead` stands before the first. -/
def itemsText (numbers : NumberText) (lead : List Char) : List Value → List Char
  | [] => [']']
  | item :: rest => lead ++ (item.text numbers ++ itemsText numbers [','] rest)

/-- The fields of an object up to its closing brace; `lead` stands before the first. -/
def fieldsText (numbers : NumberText) (lead : List Char) : List (String × Value) → List Char
  | [] => ['\x7d']
  | (key, value) :: rest =>
    lead ++ (JsonText.quoteChars key.toList
      ++ ':' :: (value.text numbers ++ fieldsText numbers [','] rest))

end

def textLe (left right : String) : Prop := codeUnits left ≤ codeUnits right

instance : DecidableRel textLe := fun left right =>
  inferInstanceAs (Decidable (codeUnits left ≤ codeUnits right))

instance : IsTrans String textLe := ⟨fun _ _ _ => le_trans⟩

instance : Std.Antisymm textLe :=
  ⟨fun _ _ below above => codeUnits_injective (le_antisymm below above)⟩

instance : Std.Total textLe := ⟨fun left right => le_total (codeUnits left) (codeUnits right)⟩

def Record.sorted (record : Record) : List (String × Value) :=
  (record.fields.sort textLe).filterMap fun key => (record.get key).map fun value => (key, value)

def canonicalize (numbers : NumberText) (record : Record) : String :=
  String.ofList ((Value.obj record.sorted).text numbers)

-- The first character of a value

def leadKind (c : Char) : Nat :=
  if c = 'n' then 0
  else if c = 't' then 1
  else if c = 'f' then 2
  else if c = '"' then 3
  else if c = '[' then 4
  else if c = '\x7b' then 5
  else if c ∈ numberChars then 6
  else 7

def Value.kind : Value → Nat
  | .null => 0
  | .bool true => 1
  | .bool false => 2
  | .str _ => 3
  | .arr _ => 4
  | .obj _ => 5
  | .num _ => 6

theorem leadKind_number : ∀ c ∈ numberChars, leadKind c = 6 := by
  intro c listed
  have apart {other : Char} (outside : other ∉ numberChars) : c ≠ other :=
    fun same => outside (same ▸ listed)
  rw [leadKind, if_neg (apart (by decide)), if_neg (apart (by decide)),
    if_neg (apart (by decide)), if_neg (apart (by decide)), if_neg (apart (by decide)),
    if_neg (apart (by decide)), if_pos listed]

theorem Value.text_lead (numbers : NumberText) (value : Value)
    : ∃ c more, value.text numbers = c :: more ∧ leadKind c = value.kind := by
  cases value with
  | null => exact ⟨_, _, Value.text.eq_1 numbers, rfl⟩
  | bool flag => cases flag <;> exact ⟨_, _, by rw [Value.text], rfl⟩
  | num amount =>
    obtain ⟨c, more, written⟩ := List.exists_cons_of_ne_nil (numbers.nonempty amount)
    refine ⟨c, more, by rw [Value.text, written], ?_⟩
    exact leadKind_number c (numbers.chars amount c (by simp [written]))
  | str text => exact ⟨_, _, by rw [Value.text, JsonText.quoteChars]; rfl, rfl⟩
  | arr items => exact ⟨_, _, by rw [Value.text], rfl⟩
  | obj fields => exact ⟨_, _, by rw [Value.text], rfl⟩

theorem Value.kind_of_text {numbers : NumberText} {left right : Value} {rest more : List Char}
    (same : left.text numbers ++ rest = right.text numbers ++ more)
    : left.kind = right.kind := by
  obtain ⟨c, others, leftText, leftKind⟩ := left.text_lead numbers
  obtain ⟨d, others', rightText, rightKind⟩ := right.text_lead numbers
  rw [leftText, rightText] at same
  have heads : c = d := (List.cons.inj same).1
  rw [← leftKind, heads, rightKind]

theorem Value.text_ne_closing (numbers : NumberText) (value : Value) {c : Char}
    (closing : leadKind c = 7) (rest more : List Char)
    : value.text numbers ++ rest ≠ c :: more := by
  intro same
  obtain ⟨d, others, written, kind⟩ := value.text_lead numbers
  rw [written] at same
  have heads : d = c := (List.cons.inj same).1
  rw [heads, closing] at kind
  cases value with
  | bool flag => cases flag <;> simp [Value.kind] at kind
  | _ => simp [Value.kind] at kind

-- The text determines the value

def EndsNumber (rest : List Char) : Prop := ∀ c more, rest = c :: more → c ∉ numberChars

theorem endsNumber_cons {c : Char} (outside : c ∉ numberChars) (more : List Char)
    : EndsNumber (c :: more) := by
  intro d others same
  rw [← (List.cons.inj same).1]
  exact outside

/-- Two runs of number characters that end alike are equal, by induction on the first. -/
theorem numbers_inj {left right rest more : List Char}
    (leftChars : ∀ c ∈ left, c ∈ numberChars) (rightChars : ∀ c ∈ right, c ∈ numberChars)
    (ends : EndsNumber rest) (ends' : EndsNumber more) (same : left ++ rest = right ++ more)
    : left = right ∧ rest = more := by
  induction left generalizing right with
  | nil =>
    cases right with
    | nil => exact ⟨rfl, same⟩
    | cons d others => exact absurd (rightChars d (by simp)) (ends d _ same)
  | cons c others ih =>
    cases right with
    | nil => exact absurd (leftChars c (by simp)) (ends' c _ same.symm)
    | cons d others' =>
      obtain ⟨rfl, tails⟩ := List.cons.inj same
      obtain ⟨rfl, ended⟩ := ih (fun e member => leftChars e (List.mem_cons_of_mem _ member))
        (fun e member => rightChars e (List.mem_cons_of_mem _ member)) tails
      exact ⟨rfl, ended⟩

theorem itemsText_ends (numbers : NumberText) (items : List Value) (rest : List Char)
    : EndsNumber (itemsText numbers [','] items ++ rest) := by
  cases items with
  | nil => exact endsNumber_cons (by decide) _
  | cons item others => exact endsNumber_cons (by decide) _

theorem fieldsText_ends (numbers : NumberText) (fields : List (String × Value))
    (rest : List Char)
    : EndsNumber (fieldsText numbers [','] fields ++ rest) := by
  cases fields with
  | nil => exact endsNumber_cons (by decide) _
  | cons field others => exact endsNumber_cons (by decide) _

/-- What may stand before the first of several parts. -/
def IsLead (lead : List Char) : Prop := lead = [] ∨ lead = [',']

theorem itemsText_ne_closing (numbers : NumberText) (item : Value) (others : List Value)
    {lead : List Char} (isLead : IsLead lead) (rest more : List Char)
    : itemsText numbers lead (item :: others) ++ rest ≠ ']' :: more := by
  rcases isLead with rfl | rfl
  · simp only [itemsText, List.nil_append, List.append_assoc]
    exact Value.text_ne_closing numbers item (by decide) _ _
  · intro same
    simp [itemsText] at same

theorem fieldsText_ne_closing (numbers : NumberText) (field : String × Value)
    (others : List (String × Value)) {lead : List Char} (isLead : IsLead lead)
    (rest more : List Char)
    : fieldsText numbers lead (field :: others) ++ rest ≠ '\x7d' :: more := by
  obtain ⟨key, value⟩ := field
  intro same
  rcases isLead with rfl | rfl <;> simp [fieldsText, JsonText.quoteChars] at same

mutual

theorem Value.text_inj (numbers : NumberText) (left right : Value) (rest more : List Char)
    (ends : EndsNumber rest) (ends' : EndsNumber more)
    (same : left.text numbers ++ rest = right.text numbers ++ more)
    : left = right ∧ rest = more := by
  have kinds := Value.kind_of_text same
  match left, right with
  | .null, .null => exact ⟨rfl, by simpa [Value.text] using same⟩
  | .bool true, .bool true => exact ⟨rfl, by simpa [Value.text] using same⟩
  | .bool false, .bool false => exact ⟨rfl, by simpa [Value.text] using same⟩
  | .num amount, .num amount' =>
    simp only [Value.text] at same
    obtain ⟨written, ended⟩ :=
      numbers_inj (numbers.chars amount) (numbers.chars amount') ends ends' same
    exact ⟨by rw [numbers.injective written], ended⟩
  | .str text, .str text' =>
    simp only [Value.text] at same
    obtain ⟨chars, ended⟩ := JsonText.quoteChars_inj same
    exact ⟨by rw [String.toList_inj.mp chars], ended⟩
  | .arr items, .arr items' =>
    simp only [Value.text, List.cons_append, List.cons.injEq, true_and] at same
    obtain ⟨rfl, ended⟩ := itemsText_inj numbers items items' [] rest more (Or.inl rfl) same
    exact ⟨rfl, ended⟩
  | .obj fields, .obj fields' =>
    simp only [Value.text, List.cons_append, List.cons.injEq, true_and] at same
    obtain ⟨rfl, ended⟩ := fieldsText_inj numbers fields fields' [] rest more (Or.inl rfl) same
    exact ⟨rfl, ended⟩

theorem itemsText_inj (numbers : NumberText) (left right : List Value)
    (lead rest more : List Char) (isLead : IsLead lead)
    (same : itemsText numbers lead left ++ rest = itemsText numbers lead right ++ more)
    : left = right ∧ rest = more := by
  match left, right with
  | [], [] => exact ⟨rfl, by simpa [itemsText] using same⟩
  | [], item :: others =>
    exact absurd same.symm (itemsText_ne_closing numbers item others isLead more rest)
  | item :: others, [] =>
    exact absurd same (itemsText_ne_closing numbers item others isLead rest more)
  | item :: others, item' :: others' =>
    simp only [itemsText, List.append_assoc, List.append_cancel_left_eq] at same
    obtain ⟨rfl, tails⟩ := Value.text_inj numbers item item' _ _
      (itemsText_ends numbers others rest) (itemsText_ends numbers others' more) same
    obtain ⟨rfl, ended⟩ :=
      itemsText_inj numbers others others' [','] rest more (Or.inr rfl) tails
    exact ⟨rfl, ended⟩

theorem fieldsText_inj (numbers : NumberText) (left right : List (String × Value))
    (lead rest more : List Char) (isLead : IsLead lead)
    (same : fieldsText numbers lead left ++ rest = fieldsText numbers lead right ++ more)
    : left = right ∧ rest = more := by
  match left, right with
  | [], [] => exact ⟨rfl, by simpa [fieldsText] using same⟩
  | [], field :: others =>
    exact absurd same.symm (fieldsText_ne_closing numbers field others isLead more rest)
  | field :: others, [] =>
    exact absurd same (fieldsText_ne_closing numbers field others isLead rest more)
  | (key, value) :: others, (key', value') :: others' =>
    simp only [fieldsText, List.append_assoc, List.append_cancel_left_eq] at same
    obtain ⟨keys, values⟩ := JsonText.quoteChars_inj same
    obtain rfl := String.toList_inj.mp keys
    simp only [List.cons_append, List.append_assoc, List.cons.injEq, true_and] at values
    obtain ⟨rfl, tails⟩ := Value.text_inj numbers value value' _ _
      (fieldsText_ends numbers others rest) (fieldsText_ends numbers others' more) values
    obtain ⟨rfl, ended⟩ :=
      fieldsText_inj numbers others others' [','] rest more (Or.inr rfl) tails
    exact ⟨rfl, ended⟩

end

-- The text determines the object

theorem Record.mem_sorted {record : Record} {key : String} {value : Value}
    : (key, value) ∈ record.sorted ↔ record.get key = some value := by
  simp only [Record.sorted, List.mem_filterMap, Finset.mem_sort, Record.mem_fields,
    Option.map_eq_some_iff, Prod.mk.injEq]
  constructor
  · rintro ⟨other, -, found, held, rfl, rfl⟩
    exact held
  · intro held
    exact ⟨key, Record.has_iff.mpr ⟨value, held⟩, value, held, rfl, rfl⟩

theorem Record.sorted_injective : Function.Injective Record.sorted := by
  intro left right same
  apply Record.ext_get
  intro field
  apply Option.ext
  intro value
  rw [← Record.mem_sorted, ← Record.mem_sorted, same]

theorem canonicalize_injective (numbers : NumberText)
    : Function.Injective (canonicalize numbers) := by
  intro left right same
  have texts := String.ofList_injective same
  have ends : EndsNumber [] := fun _ _ impossible => by cases impossible
  have values := Value.text_inj numbers (.obj left.sorted) (.obj right.sorted) [] [] ends ends
    (by rw [texts])
  exact Record.sorted_injective (Value.obj.inj values.1)

end Dynamic
