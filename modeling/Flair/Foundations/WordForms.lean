import Flair.Foundations.Text
import Mathlib.Data.List.Nodup

/-! Texts as words set apart by single spaces, and forms: lists of fixed words and of words
with a hole. A text of a form is read back into what fills its holes.
-/

universe u

namespace Dynamic

/-- `words.join(" ")`. -/
def joinWords (words : List String) : String := " ".intercalate words

/-- `text.split(" ")`. -/
def splitWords (text : String) : List String := splitAtChar ' ' text

def Spaceless (word : String) : Prop := ' ' ∉ word.toList

instance (word : String) : Decidable (Spaceless word) :=
  inferInstanceAs (Decidable (' ' ∉ word.toList))

theorem Spaceless.append {first second : String} (h : Spaceless first) (h' : Spaceless second)
    : Spaceless (first ++ second) := by
  simp only [Spaceless, String.toList_append, List.mem_append, not_or]
  exact ⟨h, h'⟩

theorem splitWords_joinWords {words : List String} (some_word : words ≠ [])
    (spaceless : ∀ word ∈ words, Spaceless word)
    : splitWords (joinWords words) = words := by
  have apart : ∀ letters ∈ words.map String.toList, ' ' ∉ letters := by
    simpa [Spaceless] using spaceless
  rw [splitWords, splitAtChar, joinWords, String.toList_intercalate,
    show " ".toList = [' '] from rfl,
    List.splitOn_intercalate ' ' apart (by simpa using some_word), List.map_map]
  simp [Function.comp_def]

theorem joinWords_splitWords (text : String) : joinWords (splitWords text) = text := by
  rw [← String.toList_inj, joinWords, String.toList_intercalate, splitWords, splitAtChar,
    List.map_map, show " ".toList = [' '] from rfl]
  have same : String.toList ∘ String.ofList = id := by
    funext letters
    exact String.toList_ofList
  rw [same, List.map_id, List.intercalate_splitOn]

def between (opening closing text : String) : Option String :=
  if opening.toList <+: text.toList ∧ closing.toList <:+ text.toList then
    some (String.ofList
      ((text.toList.take (text.toList.length - closing.toList.length)).drop
        opening.toList.length))
  else none

@[simp] theorem between_fill (opening closing filling : String)
    : between opening closing (opening ++ filling ++ closing) = some filling := by
  have letters : (opening ++ filling ++ closing).toList
      = opening.toList ++ filling.toList ++ closing.toList := by
    rw [String.toList_append, String.toList_append]
  have fits : opening.toList <+: (opening ++ filling ++ closing).toList
      ∧ closing.toList <:+ (opening ++ filling ++ closing).toList := by
    rw [letters]
    exact ⟨⟨filling.toList ++ closing.toList, (List.append_assoc ..).symm⟩,
      List.suffix_append ..⟩
  have inner : (opening.toList ++ filling.toList ++ closing.toList).length
      - closing.toList.length = (opening.toList ++ filling.toList).length := by
    rw [List.length_append]
    omega
  rw [between, if_pos fits, letters, inner, List.take_left, List.drop_left,
    String.ofList_toList]

theorem eq_fill_of_between {opening closing text filling : String}
    (read : between opening closing text = some filling) (some_filling : filling ≠ "")
    : text = opening ++ filling ++ closing := by
  unfold between at read
  split at read
  · rename_i fits
    obtain ⟨⟨rest, starts⟩, ⟨front, ends⟩⟩ := fits
    cases read
    have long : opening.toList.length ≤ front.length := by
      by_contra short
      refine some_filling ?_
      rw [← String.toList_inj, String.toList_ofList, List.drop_eq_nil_of_le]
      · rfl
      · rw [List.length_take, ← ends, List.length_append]
        omega
    have front_eq : text.toList.take (text.toList.length - closing.toList.length) = front := by
      rw [← ends]
      simp
    have opens : front.take opening.toList.length = opening.toList := by
      have same := congrArg (List.take opening.toList.length) (starts.trans ends.symm)
      rw [List.take_left, List.take_append_of_le_length long] at same
      exact same.symm
    rw [← String.toList_inj, String.toList_append, String.toList_append, String.toList_ofList,
      front_eq]
    calc text.toList = front ++ closing.toList := ends.symm
      _ = front.take opening.toList.length ++ front.drop opening.toList.length
          ++ closing.toList := by rw [List.take_append_drop]
      _ = opening.toList ++ front.drop opening.toList.length ++ closing.toList := by rw [opens]
  · cases read

-- Forms

/-- A word of a form: fixed, or with a hole between two fixed texts. -/
inductive FormWord (ν : Type u) where
  | literal (word : String)
  | hole (name : ν) (opening closing : String)
deriving DecidableEq

abbrev Fillings (ν : Type u) := List (ν × String)

namespace FormWord

variable {ν : Type u}

def read (allowed : ν → String → Bool) : FormWord ν → String → Option (Fillings ν)
  | .literal word, text => if text = word then some [] else none
  | .hole name opening closing, text =>
    (between opening closing text).bind fun filling =>
      if filling ≠ "" ∧ allowed name filling = true then some [(name, filling)] else none

def readAll (allowed : ν → String → Bool)
    : List (FormWord ν) → List String → Option (Fillings ν)
  | [], [] => some []
  | word :: form, text :: texts =>
    (word.read allowed text).bind fun filling =>
      (readAll allowed form texts).map fun fillings => filling ++ fillings
  | _, _ => none

def render (fill : ν → String) : FormWord ν → String
  | .literal word => word
  | .hole name opening closing => opening ++ fill name ++ closing

def names (form : List (FormWord ν)) : List ν :=
  form.filterMap fun
    | .literal _ => none
    | .hole name _ _ => some name

def Spaceless : FormWord ν → Prop
  | .literal word => Dynamic.Spaceless word
  | .hole _ opening closing => Dynamic.Spaceless opening ∧ Dynamic.Spaceless closing

instance (word : FormWord ν) : Decidable word.Spaceless := by
  cases word <;> unfold Spaceless <;> infer_instance

variable {allowed : ν → String → Bool}

variable {form : List (FormWord ν)} {fill : ν → String}

theorem readAll_render
    (fits : ∀ name ∈ names form, fill name ≠ "" ∧ allowed name (fill name) = true)
    : readAll allowed form (form.map (render fill))
      = some ((names form).map fun name => (name, fill name)) := by
  induction form with
  | nil => rfl
  | cons word rest ih =>
    cases word with
    | literal word =>
      have fit := ih (by simpa [names] using fits)
      simp only [List.map_cons, readAll, fit, render, read, ↓reduceIte]
      rfl
    | hole name opening closing =>
      simp only [names, List.filterMap_cons, List.forall_mem_cons] at fits
      have fit := ih fits.2
      simp only [List.map_cons, readAll, fit, render, read, between_fill, Option.bind_some,
        if_pos fits.1]
      rfl

variable {word : FormWord ν} {text : String} {texts : List String}

theorem readAll_of_second_none {first : FormWord ν} {start : String}
    (mismatch : word.read allowed text = none)
    : readAll allowed (first :: word :: form) (start :: text :: texts) = none := by
  simp only [readAll, mismatch, Option.bind_none, Option.map_none]
  cases first.read allowed start <;> rfl

theorem read_eq_some {filling : Fillings ν} (read_word : word.read allowed text = some filling)
    : match word with
      | .literal fixed => text = fixed ∧ filling = []
      | .hole name opening closing =>
        ∃ value, text = opening ++ value ++ closing ∧ value ≠ ""
          ∧ allowed name value = true ∧ filling = [(name, value)] := by
  cases word with
  | literal fixed =>
    simp only [read] at read_word
    split at read_word
    · rename_i same
      exact ⟨same, (Option.some.inj read_word).symm⟩
    · cases read_word
  | hole name opening closing =>
    simp only [read] at read_word
    obtain ⟨value, found, taken⟩ := Option.bind_eq_some_iff.mp read_word
    split at taken
    · rename_i fits
      exact ⟨value, eq_fill_of_between found fits.1, fits.1, fits.2,
        (Option.some.inj taken).symm⟩
    · cases taken

variable {fillings : Fillings ν}

theorem readAll_nil (read_form : readAll allowed [] texts = some fillings)
    : texts = [] ∧ fillings = [] := by
  cases texts <;> simp_all [readAll]

theorem readAll_cons (read_form : readAll allowed (word :: form) texts = some fillings)
    : ∃ text rest filling more, texts = text :: rest ∧ word.read allowed text = some filling
      ∧ readAll allowed form rest = some more ∧ fillings = filling ++ more := by
  cases texts with
  | nil => cases read_form
  | cons text rest =>
    obtain ⟨filling, read_word, taken⟩ := Option.bind_eq_some_iff.mp read_form
    obtain ⟨more, read_rest, rfl⟩ := Option.map_eq_some_iff.mp taken
    exact ⟨text, rest, filling, more, rfl, read_word, read_rest, rfl⟩

theorem names_of_readAll (read_form : readAll allowed form texts = some fillings)
    : fillings.map Prod.fst = names form := by
  induction form generalizing texts fillings with
  | nil =>
    obtain ⟨-, rfl⟩ := readAll_nil read_form
    rfl
  | cons word rest ih =>
    obtain ⟨text, texts, filling, more, rfl, read_word, read_rest, rfl⟩ := readAll_cons read_form
    have shape := read_eq_some read_word
    rw [List.map_append, ih read_rest]
    cases word with
    | literal fixed =>
      obtain ⟨-, rfl⟩ := shape
      rfl
    | hole name opening closing =>
      obtain ⟨value, -, -, -, rfl⟩ := shape
      rfl

theorem allowed_of_readAll (read_form : readAll allowed form texts = some fillings)
    : ∀ filling ∈ fillings, filling.2 ≠ "" ∧ allowed filling.1 filling.2 = true := by
  induction form generalizing texts fillings with
  | nil => simp [(readAll_nil read_form).2]
  | cons word rest ih =>
    obtain ⟨text, texts, filling, more, rfl, read_word, read_rest, rfl⟩ := readAll_cons read_form
    have shape := read_eq_some read_word
    rw [List.forall_mem_append]
    refine ⟨?_, ih read_rest⟩
    cases word with
    | literal fixed =>
      obtain ⟨-, rfl⟩ := shape
      simp
    | hole name opening closing =>
      obtain ⟨value, -, some_value, fits, rfl⟩ := shape
      simpa using ⟨some_value, fits⟩

theorem render_of_readAll (read_form : readAll allowed form texts = some fillings)
    (agree : ∀ filling ∈ fillings, fill filling.1 = filling.2)
    : texts = form.map (render fill) := by
  induction form generalizing texts fillings with
  | nil => exact (readAll_nil read_form).1
  | cons word rest ih =>
    obtain ⟨text, texts, filling, more, rfl, read_word, read_rest, rfl⟩ := readAll_cons read_form
    rw [List.forall_mem_append] at agree
    have shape := read_eq_some read_word
    rw [List.map_cons, ih read_rest agree.2]
    congr 1
    cases word with
    | literal fixed => exact shape.1
    | hole name opening closing =>
      obtain ⟨value, rfl, -, -, rfl⟩ := shape
      have filled : fill name = value := by simpa using agree.1
      rw [render, filled]

theorem spaceless_render (fixed : ∀ word ∈ form, word.Spaceless)
    (filled : ∀ name ∈ names form, Dynamic.Spaceless (fill name))
    : ∀ text ∈ form.map (render fill), Dynamic.Spaceless text := by
  intro text member
  obtain ⟨word, inside, rfl⟩ := List.mem_map.mp member
  cases word with
  | literal word => exact fixed _ inside
  | hole name opening closing =>
    have apart := fixed _ inside
    have here : name ∈ names form := List.mem_filterMap.mpr ⟨_, inside, rfl⟩
    exact (apart.1.append (filled name here)).append apart.2

def opening : FormWord ν → List Char
  | .literal word => word.toList
  | .hole _ opening _ => opening.toList

/-- A text may be one of both forms: they have as many words, and of the texts two words in one
place start with, one starts the other.
-/
def comparable (form other : List (FormWord ν)) : Bool :=
  form.length == other.length && (form.zip other).all fun (word, text) =>
    word.opening.isPrefixOf text.opening || text.opening.isPrefixOf word.opening

theorem opening_of_read {filling : Fillings ν} (read_word : word.read allowed text = some filling)
    : word.opening <+: text.toList := by
  have shape := read_eq_some read_word
  cases word with
  | literal fixed => exact shape.1 ▸ List.prefix_rfl
  | hole name opening closing =>
    obtain ⟨value, rfl, -⟩ := shape
    rw [String.toList_append, String.toList_append, List.append_assoc]
    exact List.prefix_append ..

theorem comparable_of_readAll {other_allowed : ν → String → Bool} {other : List (FormWord ν)}
    {more : Fillings ν} (read : readAll allowed form texts = some fillings)
    (read_other : readAll other_allowed other texts = some more)
    : comparable form other = true := by
  induction form generalizing other texts fillings more with
  | nil =>
    obtain ⟨rfl, -⟩ := readAll_nil read
    cases other with
    | nil => rfl
    | cons word rest => cases read_other
  | cons word rest ih =>
    obtain ⟨text, texts, _, _, rfl, here, later, -⟩ := readAll_cons read
    cases other with
    | nil => cases read_other
    | cons word' rest' =>
      obtain ⟨_, _, _, _, same, here', later', -⟩ := readAll_cons read_other
      obtain ⟨rfl, rfl⟩ := List.cons.inj same
      have tails := ih later later'
      simp only [comparable, Bool.and_eq_true, beq_iff_eq] at tails ⊢
      refine ⟨by simpa using tails.1, ?_⟩
      rw [List.zip_cons_cons, List.all_cons, Bool.and_eq_true, Bool.or_eq_true,
        List.isPrefixOf_iff_prefix, List.isPrefixOf_iff_prefix]
      exact ⟨List.prefix_or_prefix_of_prefix (opening_of_read here) (opening_of_read here'),
        tails.2⟩

theorem eq_render_of_readAll [DecidableEq ν]
    (read_form : readAll allowed form texts = some fillings) (distinct : (names form).Nodup)
    : texts = form.map (render fun name => (fillings.lookup name).getD "")
      ∧ fillings = (names form).map fun name => (name, (fillings.lookup name).getD "") := by
  have named := names_of_readAll read_form
  have agree : ∀ filling ∈ fillings, (fillings.lookup filling.1).getD "" = filling.2 := by
    rw [← named] at distinct
    clear read_form named
    induction fillings with
    | nil => simp
    | cons first rest ih =>
      rw [List.map_cons, List.nodup_cons] at distinct
      intro filling member
      rcases List.mem_cons.mp member with rfl | later
      · rw [List.lookup_cons_self, Option.getD_some]
      have apart : filling.1 ≠ first.1 := fun same =>
        distinct.1 (same ▸ List.mem_map_of_mem later)
      rw [List.lookup_cons, beq_false_of_ne apart]
      exact ih distinct.2 filling later
  refine ⟨render_of_readAll read_form agree, ?_⟩
  rw [← named, List.map_map]
  exact (List.map_id' fillings).symm.trans
    (List.map_congr_left fun filling member => Prod.ext rfl (agree filling member).symm)

end FormWord

end Dynamic
