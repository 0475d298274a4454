import Flair.Foundations.CanonicalJson

/-! Values whose objects list their members in any order: the value with its keys in order, and
the texts that agree exactly for the values that differ in the order of keys alone.
-/

namespace Dynamic

/-- An order of object keys, by a rank that tells any two apart. -/
structure KeyOrder where
  rank : String → List Nat
  injective : Function.Injective rank

def textOrder : KeyOrder := ⟨codeUnits, codeUnits_injective⟩

variable {order : KeyOrder}

def memberLe (order : KeyOrder) (left right : String × Value) : Prop :=
  order.rank left.1 ≤ order.rank right.1

instance : DecidableRel (memberLe order) := fun left right =>
  inferInstanceAs (Decidable (order.rank left.1 ≤ order.rank right.1))

instance : IsTrans (String × Value) (memberLe order) := ⟨fun _ _ _ => le_trans⟩

instance : Std.Total (memberLe order) :=
  ⟨fun left right => le_total (order.rank left.1) (order.rank right.1)⟩

mutual

def Value.sorted (order : KeyOrder) : Value → Value
  | .null => .null
  | .bool flag => .bool flag
  | .num amount => .num amount
  | .str text => .str text
  | .arr items => .arr (sortedItems order items)
  | .obj fields => .obj ((sortedFields order fields).insertionSort (memberLe order))

def sortedItems (order : KeyOrder) : List Value → List Value
  | [] => []
  | item :: rest => item.sorted order :: sortedItems order rest

def sortedFields (order : KeyOrder) : List (String × Value) → List (String × Value)
  | [] => []
  | (key, value) :: rest => (key, value.sorted order) :: sortedFields order rest

end

mutual

def Value.Plain : Value → Prop
  | .arr items => PlainItems items
  | .obj fields => (fields.map Prod.fst).Nodup ∧ PlainFields fields
  | .null | .bool _ | .num _ | .str _ => True

def PlainItems : List Value → Prop
  | [] => True
  | item :: rest => item.Plain ∧ PlainItems rest

def PlainFields : List (String × Value) → Prop
  | [] => True
  | (_, value) :: rest => value.Plain ∧ PlainFields rest

end

/-- Two values that differ in the order of object keys alone. -/
inductive Reorders : Value → Value → Prop where
  | refl (value : Value) : Reorders value value
  | symm {left right : Value} (h : Reorders left right) : Reorders right left
  | trans {left middle right : Value} (h : Reorders left middle) (more : Reorders middle right)
      : Reorders left right
  | item {left right : Value} (front back : List Value) (h : Reorders left right)
      : Reorders (.arr (front ++ left :: back)) (.arr (front ++ right :: back))
  | member {left right : Value} (front back : List (String × Value)) (key : String)
      (h : Reorders left right)
      : Reorders (.obj (front ++ (key, left) :: back)) (.obj (front ++ (key, right) :: back))
  | keys {left right : List (String × Value)} (distinct : (left.map Prod.fst).Nodup)
      (h : left.Perm right)
      : Reorders (.obj left) (.obj right)

theorem sortedItems_eq (items : List Value) : sortedItems order items = items.map (Value.sorted order) := by
  induction items with
  | nil => rfl
  | cons item rest ih => rw [sortedItems, ih, List.map_cons]

theorem sortedFields_eq (fields : List (String × Value))
    : sortedFields order fields = fields.map fun member => (member.1, member.2.sorted order) := by
  induction fields with
  | nil => rfl
  | cons member rest ih => rw [sortedFields, ih, List.map_cons]

theorem keys_sortedFields (fields : List (String × Value))
    : (sortedFields order fields).map Prod.fst = fields.map Prod.fst := by
  rw [sortedFields_eq, List.map_map]
  rfl

theorem insertionSort_members {left right : List (String × Value)}
    (distinct : (left.map Prod.fst).Nodup) (h : left.Perm right)
    : left.insertionSort (memberLe order) = right.insertionSort (memberLe order) := by
  refine List.Perm.eq_of_pairwise ?_ (List.pairwise_insertionSort (memberLe order) left)
    (List.pairwise_insertionSort (memberLe order) right)
    ((List.perm_insertionSort (memberLe order) left).trans
      (h.trans (List.perm_insertionSort (memberLe order) right).symm))
  intro a b inLeft inRight below above
  have keys : a.1 = b.1 := order.injective (le_antisymm below above)
  have inLeft := (List.mem_insertionSort _).mp inLeft
  have inRight := h.mem_iff.mpr ((List.mem_insertionSort _).mp inRight)
  exact List.inj_on_of_nodup_map distinct inLeft inRight keys

/-- Values that differ in the order of keys alone are sorted alike, by induction on how they
differ.
-/
theorem Reorders.sorted_eq {left right : Value} (h : Reorders left right)
    : left.sorted order = right.sorted order := by
  induction h with
  | refl => rfl
  | symm _ ih => exact ih.symm
  | trans _ _ ih more => exact ih.trans more
  | item front back _ ih => simp [Value.sorted, sortedItems_eq, ih]
  | member front back key _ ih => simp [Value.sorted, sortedFields_eq, ih]
  | keys distinct perm =>
    rw [Value.sorted, Value.sorted, sortedFields_eq, sortedFields_eq]
    refine congrArg Value.obj (insertionSort_members ?_ (perm.map _))
    rw [List.map_map]
    exact distinct

mutual

theorem Value.Plain.reorders (value : Value) (plain : value.Plain)
    : Reorders value (value.sorted order) := by
  match value with
  | .null | .bool _ | .num _ | .str _ => rw [Value.sorted]; exact .refl _
  | .arr items =>
    rw [Value.sorted]
    rw [Value.Plain] at plain
    exact PlainItems.reorders items [] plain
  | .obj fields =>
    rw [Value.sorted]
    rw [Value.Plain] at plain
    refine (PlainFields.reorders fields [] plain.2).trans (.keys ?_ ?_)
    · rw [List.nil_append, keys_sortedFields]
      exact plain.1
    · exact (List.perm_insertionSort (memberLe order) _).symm

theorem PlainItems.reorders (items front : List Value) (plain : PlainItems items)
    : Reorders (.arr (front ++ items)) (.arr (front ++ sortedItems order items)) := by
  match items with
  | [] => exact .refl _
  | item :: rest =>
    rw [PlainItems] at plain
    rw [sortedItems]
    refine (Reorders.item front rest (Value.Plain.reorders item plain.1)).trans ?_
    simpa using PlainItems.reorders rest (front ++ [item.sorted order]) plain.2

theorem PlainFields.reorders (fields front : List (String × Value)) (plain : PlainFields fields)
    : Reorders (.obj (front ++ fields)) (.obj (front ++ sortedFields order fields)) := by
  match fields with
  | [] => exact .refl _
  | (key, value) :: rest =>
    rw [PlainFields] at plain
    rw [sortedFields]
    refine (Reorders.member front rest key (Value.Plain.reorders value plain.1)).trans ?_
    simpa using PlainFields.reorders rest (front ++ [(key, value.sorted order)]) plain.2

end

theorem plainItems_iff {items : List Value} : PlainItems items ↔ ∀ item ∈ items, item.Plain := by
  induction items with
  | nil => simp [PlainItems]
  | cons item rest ih => rw [PlainItems, ih, List.forall_mem_cons]

theorem plainFields_iff {fields : List (String × Value)}
    : PlainFields fields ↔ ∀ member ∈ fields, member.2.Plain := by
  induction fields with
  | nil => simp [PlainFields]
  | cons member rest ih => rw [PlainFields, ih, List.forall_mem_cons]

theorem Reorders.plain_iff {left right : Value} (h : Reorders left right)
    : left.Plain ↔ right.Plain := by
  induction h with
  | refl => rfl
  | symm _ ih => exact ih.symm
  | trans _ _ ih more => exact ih.trans more
  | item front back _ ih => simp [Value.Plain, plainItems_iff, or_imp, forall_and, ih]
  | member front back key _ ih => simp [Value.Plain, plainFields_iff, or_imp, forall_and, ih]
  | keys _ perm =>
    simp only [Value.Plain, plainFields_iff, (perm.map Prod.fst).nodup_iff, perm.mem_iff]

theorem sorted_eq_iff {left right : Value} (leftPlain : left.Plain) (rightPlain : right.Plain)
    : left.sorted order = right.sorted order ↔ Reorders left right :=
  ⟨fun same => leftPlain.reorders.trans (same ▸ rightPlain.reorders.symm), Reorders.sorted_eq⟩

def canonicalText (order : KeyOrder) (numbers : NumberText) (value : Value) : String :=
  String.ofList ((value.sorted order).text numbers)

theorem canonicalText_eq_iff (numbers : NumberText) {left right : Value}
    (leftPlain : left.Plain) (rightPlain : right.Plain)
    : canonicalText order numbers left = canonicalText order numbers right ↔ Reorders left right := by
  rw [← sorted_eq_iff leftPlain rightPlain]
  constructor
  · intro same
    have ends : EndsNumber [] := fun _ _ impossible => by cases impossible
    exact (Value.text_inj numbers _ _ [] [] ends ends
      (by rw [String.ofList_injective same])).1
  · exact fun same => by rw [canonicalText, canonicalText, same]

-- Members

abbrev Members := List (String × Value)

theorem lookup_eq_some {members : Members} (distinct : (members.map Prod.fst).Nodup)
    {key : String} {value : Value}
    : members.lookup key = some value ↔ (key, value) ∈ members := by
  induction members with
  | nil => simp
  | cons member rest ih =>
    obtain ⟨new, others⟩ := List.nodup_cons.mp distinct
    obtain ⟨first, held⟩ := member
    rw [List.lookup_cons, List.mem_cons, Prod.mk.injEq]
    by_cases same : key = first
    · subst same
      have absent : (key, value) ∉ rest := fun later => new (List.mem_map.mpr ⟨_, later, rfl⟩)
      simp [absent, eq_comm]
    · rw [beq_false_of_ne same]
      simp [same, ih others]

theorem lookup_perm {left right : Members} (distinct : (left.map Prod.fst).Nodup)
    (h : left.Perm right) (key : String)
    : left.lookup key = right.lookup key := by
  apply Option.ext
  intro value
  rw [lookup_eq_some distinct, lookup_eq_some ((h.map Prod.fst).nodup_iff.mp distinct), h.mem_iff]

theorem lookup_sortedFields (members : Members) (key : String)
    : (sortedFields order members).lookup key
      = (members.lookup key).map (Value.sorted order) := by
  rw [sortedFields_eq]
  induction members with
  | nil => rfl
  | cons member rest ih =>
    rw [List.map_cons, List.lookup_cons, List.lookup_cons, ih]
    split <;> rfl

def sortedMembers (order : KeyOrder) (members : Members) : Members :=
  (sortedFields order members).insertionSort (memberLe order)

theorem sorted_obj (members : Members)
    : (Value.obj members).sorted order = .obj (sortedMembers order members) := rfl

theorem perm_sortedMembers (members : Members)
    : (sortedMembers order members).Perm (sortedFields order members) :=
  List.perm_insertionSort (memberLe order) _

theorem lookup_sortedMembers {members : Members} (distinct : (members.map Prod.fst).Nodup)
    (key : String)
    : (sortedMembers order members).lookup key
      = (members.lookup key).map (Value.sorted order) := by
  rw [← lookup_sortedFields]
  refine (lookup_perm ?_ (perm_sortedMembers members).symm key).symm
  rw [keys_sortedFields]
  exact distinct

theorem plain_of_lookup {members : Members} (plain : (Value.obj members).Plain) {key : String}
    {value : Value} (h : members.lookup key = some value)
    : value.Plain := by
  rw [Value.Plain] at plain
  exact plainFields_iff.mp plain.2 _ ((lookup_eq_some plain.1).mp h)

theorem plain_sortedMembers {members : Members} (plain : (Value.obj members).Plain)
    : (Value.obj (sortedMembers order members)).Plain := by
  have sorted := (@Value.Plain.reorders order _ plain).plain_iff.mp plain
  rwa [sorted_obj] at sorted

end Dynamic
