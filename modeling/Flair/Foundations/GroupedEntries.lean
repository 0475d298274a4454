import Mathlib.Data.List.Basic
import Mathlib.Data.List.Flatten

/-! Lists of groups that may each hold a list of entries, some of which are of a kind: the
first such entry and its surroundings, edits at a position, and what a list of groups holds
without that kind.
-/

universe u v

structure Grouping (γ : Type u) (ε : Type v) where
  entries : γ → Option (List ε)
  withEntries : γ → List ε → γ
  entries_withEntries : ∀ {group : γ} {held : List ε}, entries group = some held →
    ∀ next, entries (withEntries group next) = some next
  withEntries_withEntries : ∀ group first next,
    withEntries (withEntries group first) next = withEntries group next
  withEntries_entries : ∀ {group : γ} {held : List ε}, entries group = some held →
    withEntries group held = group

namespace Grouping

variable {γ : Type u} {ε : Type v} (grouping : Grouping γ ε) (ours : ε → Bool)

def held (group : γ) : List ε := (grouping.entries group).getD []

def all (groups : List γ) : List ε := groups.flatMap grouping.held

def own (groups : List γ) : List ε := (grouping.all groups).filter ours

def onlyOurs (group : γ) : Bool := !(grouping.held group).isEmpty && (grouping.held group).all ours

def strip (group : γ) : γ :=
  match grouping.entries group with
  | some held => grouping.withEntries group (held.filter fun entry => !ours entry)
  | none => group

def residue (group : γ) : Option γ :=
  if grouping.onlyOurs ours group then none else some (grouping.strip ours group)

def others (groups : List γ) : List γ := groups.filterMap (grouping.residue ours)

def inhabited (group : γ) : Bool :=
  match grouping.entries group with
  | some [] => false
  | _ => true

def bare (groups : List γ) : List γ := (groups.map (grouping.strip ours)).filter grouping.inhabited

/-- Take the entries of the kind out of the groups that hold others too. -/
def separate (groups : List γ) : List γ :=
  groups.map fun group =>
    if grouping.onlyOurs ours group then group else grouping.strip ours group

/-- Some group holds entries of the kind next to others. -/
def isMixed (groups : List γ) : Bool :=
  groups.any fun group => !grouping.onlyOurs ours group && (grouping.held group).any ours

def find : List γ → Option (Nat × Nat)
  | [] => none
  | group :: rest =>
    match (grouping.held group).findIdx? ours with
    | some index => some (0, index)
    | none => (find rest).map fun place => (place.1 + 1, place.2)

def put (groups : List γ) (place : Nat × Nat) (entry : ε) : List γ :=
  groups.modify place.1 fun group =>
    grouping.withEntries group ((grouping.held group).set place.2 entry)

def splice (groups : List γ) (place : Nat × Nat) : List γ :=
  groups.modify place.1 fun group =>
    grouping.withEntries group ((grouping.held group).eraseIdx place.2)

def takeOut (groups : List γ) (place : Nat × Nat) : List γ :=
  let spliced := grouping.splice groups place
  if spliced[place.1]?.any (fun group => (grouping.held group).isEmpty) then
    spliced.eraseIdx place.1
  else spliced

def indices (ours : ε → Bool) : List ε → List Nat
  | [] => []
  | entry :: rest => (if ours entry then [0] else []) ++ (indices ours rest).map (· + 1)

def findAll : List γ → List (Nat × Nat)
  | [] => []
  | group :: rest =>
    (indices ours (grouping.held group)).map (fun index => (0, index))
      ++ (findAll rest).map fun place => (place.1 + 1, place.2)

/-- Take the entries at some positions out, the last position first. -/
def spliceAll (groups : List γ) (places : List (Nat × Nat)) : List γ :=
  places.foldr (fun place left => grouping.splice left place) groups

variable {grouping ours}

-- Entries of groups

variable {group : γ} {entries : List ε}

theorem held_of_entries (listed : grouping.entries group = some entries)
    : grouping.held group = entries := by
  simp [held, listed]

theorem entries_of_mem {group : γ} {entry : ε} (member : entry ∈ grouping.held group)
    : grouping.entries group = some (grouping.held group) := by
  unfold held at member ⊢
  cases listed : grouping.entries group with
  | none => simp [listed] at member
  | some entries => rfl

@[simp] theorem all_nil : grouping.all [] = [] := rfl

@[simp] theorem all_cons (group : γ) (groups : List γ)
    : grouping.all (group :: groups) = grouping.held group ++ grouping.all groups := rfl

@[simp] theorem all_append (first second : List γ)
    : grouping.all (first ++ second) = grouping.all first ++ grouping.all second :=
  List.flatMap_append

@[simp] theorem own_nil : grouping.own ours [] = [] := rfl

@[simp] theorem own_cons (group : γ) (groups : List γ)
    : grouping.own ours (group :: groups)
      = (grouping.held group).filter ours ++ grouping.own ours groups := by
  simp [own]

@[simp] theorem own_append (first second : List γ)
    : grouping.own ours (first ++ second)
      = grouping.own ours first ++ grouping.own ours second := by
  simp [own]

variable {groups : List γ}

theorem own_eq_nil
    : grouping.own ours groups = [] ↔ ∀ entry ∈ grouping.all groups, ours entry = false := by
  simp [own, List.filter_eq_nil_iff]

@[simp] theorem others_nil : grouping.others ours [] = [] := rfl

theorem others_cons (group : γ) (groups : List γ)
    : grouping.others ours (group :: groups)
      = (grouping.residue ours group).toList ++ grouping.others ours groups := by
  unfold others
  cases kept : grouping.residue ours group <;> simp [kept]

@[simp] theorem others_append (first second : List γ)
    : grouping.others ours (first ++ second)
      = grouping.others ours first ++ grouping.others ours second :=
  List.filterMap_append

-- What is left of one group

theorem strip_withEntries {next : List ε} (listed : grouping.entries group = some entries)
    (agree : next.filter (fun entry => !ours entry) = entries.filter fun entry => !ours entry)
    : grouping.strip ours (grouping.withEntries group next) = grouping.strip ours group := by
  have relisted := grouping.entries_withEntries listed next
  simp only [strip, listed, relisted, agree, grouping.withEntries_withEntries]

theorem strip_of_none (none_ours : ∀ entry ∈ grouping.held group, ours entry = false)
    : grouping.strip ours group = group := by
  unfold strip
  split
  · rename_i entries listed
    rw [held_of_entries listed] at none_ours
    rw [List.filter_eq_self.mpr fun entry member => by simp [none_ours entry member]]
    exact grouping.withEntries_entries listed
  · rfl

theorem held_strip (group : γ)
    : grouping.held (grouping.strip ours group)
      = (grouping.held group).filter fun entry => !ours entry := by
  unfold strip
  split
  · rename_i entries listed
    rw [held_of_entries (grouping.entries_withEntries listed _), held_of_entries listed]
  · rename_i unlisted
    simp [held, unlisted]

theorem none_held_strip (group : γ)
    : ∀ entry ∈ grouping.held (grouping.strip ours group), ours entry = false := by
  intro entry member
  rw [held_strip] at member
  simpa using (List.mem_filter.mp member).2

theorem strip_strip (group : γ)
    : grouping.strip ours (grouping.strip ours group) = grouping.strip ours group :=
  strip_of_none (none_held_strip group)

theorem onlyOurs_iff (listed : grouping.entries group = some entries)
    : grouping.onlyOurs ours group = true
      ↔ entries ≠ [] ∧ ∀ entry ∈ entries, ours entry = true := by
  simp [onlyOurs, held_of_entries listed]

/-- Two groups that differ in their entries only and agree on those not of the kind leave
the same, when both or neither hold only the kind.
-/
theorem residue_withEntries {next : List ε} (listed : grouping.entries group = some entries)
    (agree : next.filter (fun entry => !ours entry) = entries.filter fun entry => !ours entry)
    (emptiness : next = [] ↔ entries = [])
    : grouping.residue ours (grouping.withEntries group next)
      = grouping.residue ours group := by
  have relisted := grouping.entries_withEntries listed next
  have onlyness : grouping.onlyOurs ours (grouping.withEntries group next)
      = grouping.onlyOurs ours group := by
    have nothing : ∀ held : List ε, (∀ entry ∈ held, ours entry = true)
        ↔ held.filter (fun entry => !ours entry) = [] := by
      simp [List.filter_eq_nil_iff]
    rw [Bool.eq_iff_iff, onlyOurs_iff listed, onlyOurs_iff relisted, nothing, nothing, agree,
      Ne, Ne, emptiness]
  simp only [residue, strip_withEntries listed agree, onlyness]

theorem residue_of_none {group : γ} (none_ours : ∀ entry ∈ grouping.held group, ours entry = false)
    : grouping.residue ours group = some group := by
  have mixed : grouping.onlyOurs ours group = false := by
    cases listing : grouping.held group with
    | nil => simp [onlyOurs, listing]
    | cons entry rest =>
      have foreign := none_ours entry (by simp [listing])
      simp [onlyOurs, listing, foreign]
  simp [residue, mixed, strip_of_none none_ours]

theorem others_of_none (none_ours : grouping.own ours groups = [])
    : grouping.others ours groups = groups := by
  induction groups with
  | nil => rfl
  | cons group rest ih =>
    rw [own_cons, List.append_eq_nil_iff] at none_ours
    have here := none_ours.1
    rw [List.filter_eq_nil_iff] at here
    rw [others_cons, residue_of_none (by simpa using here), ih none_ours.2]
    rfl

theorem residue_of_only (listed : grouping.entries group = some entries) (some_entry : entries ≠ [])
    (only : ∀ entry ∈ entries, ours entry = true)
    : grouping.residue ours group = none := by
  simp [residue, (onlyOurs_iff listed).mpr ⟨some_entry, only⟩]

theorem own_others (groups : List γ) : grouping.own ours (grouping.others ours groups) = [] := by
  induction groups with
  | nil => rfl
  | cons group rest ih =>
    rw [others_cons, own_append, ih, List.append_nil]
    cases kept : grouping.residue ours group with
    | none => rfl
    | some left =>
      obtain rfl : grouping.strip ours group = left := by
        unfold residue at kept
        split at kept
        · cases kept
        · exact Option.some.inj kept
      rw [Option.toList_some, own_cons, own_nil, List.append_nil, List.filter_eq_nil_iff]
      simpa using none_held_strip group

theorem residue_strip (mixed : grouping.onlyOurs ours group = false)
    : grouping.residue ours (grouping.strip ours group) = grouping.residue ours group := by
  cases listed : grouping.entries group with
  | none => simp [strip, listed]
  | some entries =>
    have stripped : grouping.strip ours group
        = grouping.withEntries group (entries.filter fun entry => !ours entry) := by
      simp [strip, listed]
    rw [stripped]
    refine residue_withEntries listed (by simp [List.filter_filter]) ⟨fun empty => ?_, ?_⟩
    · by_contra some_entry
      have only := (onlyOurs_iff listed).mpr ⟨some_entry, by
        simpa [List.filter_eq_nil_iff] using empty⟩
      rw [mixed] at only
      cases only
    · rintro rfl
      rfl

theorem others_separate (groups : List γ)
    : grouping.others ours (grouping.separate ours groups) = grouping.others ours groups := by
  induction groups with
  | nil => rfl
  | cons group rest ih =>
    rw [separate, List.map_cons, others_cons, others_cons, ← separate, ih]
    split
    · rfl
    · rename_i mixed
      rw [residue_strip (by simpa using mixed)]

theorem own_separate (groups : List γ)
    : grouping.own ours (grouping.separate ours groups)
      = grouping.own ours (groups.filter (grouping.onlyOurs ours)) := by
  induction groups with
  | nil => rfl
  | cons group rest ih =>
    rw [separate, List.map_cons, own_cons, ← separate, ih]
    cases only : grouping.onlyOurs ours group with
    | true => simp [only]
    | false => simp [only, held_strip, List.filter_filter]

theorem separate_of_not_mixed (pure : grouping.isMixed ours groups = false)
    : grouping.separate ours groups = groups := by
  unfold separate
  rw [List.map_congr_left, List.map_id]
  intro group member
  simp only [isMixed, List.any_eq_false, Bool.and_eq_true, Bool.not_eq_true', not_and] at pure
  split
  · rfl
  rename_i mixed
  have none_ours := pure group member (by simpa using mixed)
  have unchanged := @residue_of_none _ _ grouping ours group (by simpa using none_ours)
  unfold residue at unchanged
  rw [if_neg mixed] at unchanged
  exact Option.some.inj unchanged

theorem isMixed_separate (groups : List γ)
    : grouping.isMixed ours (grouping.separate ours groups) = false := by
  unfold isMixed separate
  rw [List.any_eq_false]
  intro left member
  obtain ⟨group, -, rfl⟩ := List.mem_map.mp member
  split
  · rename_i only
    simp [only]
  · simp [held_strip]

-- The first entry of the kind

structure First (grouping : Grouping γ ε) (ours : ε → Bool) (groups : List γ) where
  before : List γ
  group : γ
  after : List γ
  ahead : List ε
  entry : ε
  behind : List ε
  split : groups = before ++ group :: after
  listed : grouping.entries group = some (ahead ++ entry :: behind)
  isOurs : ours entry = true
  noneBefore : grouping.own ours before = []
  noneAhead : ∀ other ∈ ahead, ours other = false

namespace First

variable {groups : List γ} (first : First grouping ours groups)

def place : Nat × Nat := (first.before.length, first.ahead.length)

def withGroup (group : γ) : List γ := first.before ++ group :: first.after

def groupOf (entries : List ε) : γ := grouping.withEntries first.group entries

end First

theorem first_append {entry : ε} (listed : grouping.entries group = some [entry])
    (isOurs : ours entry = true) (fresh : grouping.own ours groups = [])
    : ∃ first : First grouping ours (groups ++ [group]),
      first.group = group ∧ first.ahead = [] ∧ first.entry = entry ∧ first.behind = [] :=
  ⟨⟨groups, group, [], [], entry, [], rfl, listed, isOurs, fresh, by simp⟩, rfl, rfl, rfl, rfl⟩

theorem findIdx?_split {index : Nat} (found : entries.findIdx? ours = some index)
    : ∃ ahead entry behind, entries = ahead ++ entry :: behind ∧ ahead.length = index
      ∧ ours entry = true ∧ ∀ other ∈ ahead, ours other = false := by
  induction entries generalizing index with
  | nil => simp at found
  | cons entry rest ih =>
    rw [List.findIdx?_cons] at found
    split at found
    · rename_i here
      cases found
      exact ⟨[], entry, rest, rfl, rfl, here, by simp⟩
    · rename_i beyond
      cases later : rest.findIdx? ours with
      | none => simp [later] at found
      | some below =>
        obtain ⟨ahead, found_entry, behind, rfl, length, isOurs, noneAhead⟩ := ih later
        obtain rfl : below + 1 = index := by simpa [later] using found
        refine ⟨entry :: ahead, found_entry, behind, rfl, by simp [length], isOurs, ?_⟩
        simpa [Bool.eq_false_iff.mpr beyond] using noneAhead

theorem first_of_find {place : Nat × Nat} (found : grouping.find ours groups = some place)
    : ∃ first : First grouping ours groups, first.place = place := by
  induction groups generalizing place with
  | nil => cases found
  | cons group rest ih =>
    unfold find at found
    split at found
    · rename_i index here
      obtain ⟨ahead, entry, behind, parts, length, isOurs, noneAhead⟩ := findIdx?_split here
      cases found
      refine ⟨⟨[], group, rest, ahead, entry, behind, rfl, ?_, isOurs, rfl, noneAhead⟩,
        by simp [First.place, length]⟩
      rw [← parts]
      exact @entries_of_mem _ _ _ _ entry (by simp [parts])
    · rename_i absent
      cases later : find grouping ours rest with
      | none => simp [later] at found
      | some below =>
        obtain ⟨first, rfl⟩ := ih later
        obtain rfl : (first.place.1 + 1, first.place.2) = place := by
          simpa [later] using found
        refine ⟨⟨group :: first.before, first.group, first.after, first.ahead, first.entry,
          first.behind, by rw [List.cons_append, ← first.split], first.listed, first.isOurs,
          ?_, first.noneAhead⟩, rfl⟩
        rw [own_cons, first.noneBefore, List.append_nil, List.filter_eq_nil_iff]
        simpa [List.findIdx?_eq_none_iff] using absent

theorem find_eq_none
    : grouping.find ours groups = none ↔ grouping.own ours groups = [] := by
  induction groups with
  | nil => simp [find]
  | cons group rest ih =>
    unfold find
    rw [own_cons, List.append_eq_nil_iff, ← ih, List.filter_eq_nil_iff]
    cases here : (grouping.held group).findIdx? ours with
    | none =>
      have absent : ∀ entry ∈ grouping.held group, ours entry = false := by
        simpa [List.findIdx?_eq_none_iff] using here
      simpa using fun _ => absent
    | some index =>
      obtain ⟨ahead, entry, behind, parts, -, isOurs, -⟩ := findIdx?_split here
      simp only [reduceCtorEq, false_iff, not_and]
      intro noneOurs
      exact absurd isOurs (noneOurs entry (by simp [parts]))

namespace First

variable {groups : List γ} (first : First grouping ours groups)

theorem find_eq : grouping.find ours groups = some first.place := by
  obtain ⟨before, group, after, ahead, entry, behind, rfl, listed, isOurs, noneBefore, noneAhead⟩
    := first
  show grouping.find ours (before ++ group :: after) = some (before.length, ahead.length)
  induction before with
  | nil =>
    have index : (grouping.held group).findIdx? ours = some ahead.length := by
      rw [held_of_entries listed, List.findIdx?_append,
        List.findIdx?_eq_none_iff.mpr noneAhead]
      simp [List.findIdx?_cons, isOurs]
    simp [find, index]
  | cons earlier rest ih =>
    rw [own_cons, List.append_eq_nil_iff, List.filter_eq_nil_iff] at noneBefore
    have absent : (grouping.held earlier).findIdx? ours = none := by
      simpa [List.findIdx?_eq_none_iff] using noneBefore.1
    simp [find, absent, ih noneBefore.2]

theorem getElem?_place : groups[first.place.1]? = some first.group := by
  obtain ⟨before, group, after, ahead, entry, behind, rfl, -⟩ := first
  simp [place]

theorem held_group : grouping.held first.group = first.ahead ++ first.entry :: first.behind :=
  held_of_entries first.listed

theorem modify_place (change : γ → γ)
    : groups.modify first.place.1 change = first.withGroup (change first.group) := by
  obtain ⟨before, group, after, ahead, entry, behind, rfl, -, -, noneBefore, -⟩ := first
  simp only [place, withGroup]
  clear noneBefore
  induction before with
  | nil => rfl
  | cons earlier rest ih => simpa using ih

theorem put_place (entry : ε)
    : grouping.put groups first.place entry
      = first.withGroup (first.groupOf (first.ahead ++ entry :: first.behind)) := by
  rw [put, modify_place, groupOf, held_group]
  simp [place]

theorem splice_place
    : grouping.splice groups first.place
      = first.withGroup (first.groupOf (first.ahead ++ first.behind)) := by
  rw [splice, modify_place, groupOf, held_group]
  simp [place, List.eraseIdx_append_of_length_le]

theorem entries_groupOf (entries : List ε)
    : grouping.entries (first.groupOf entries) = some entries :=
  grouping.entries_withEntries first.listed entries

theorem own_withGroup (group : γ)
    : grouping.own ours (first.withGroup group)
      = (grouping.held group).filter ours ++ grouping.own ours first.after := by
  simp [withGroup, first.noneBefore]

theorem filter_ahead : first.ahead.filter ours = [] := by
  simpa [List.filter_eq_nil_iff] using first.noneAhead

theorem own_eq
    : grouping.own ours groups
      = first.entry :: (first.behind.filter ours ++ grouping.own ours first.after) := by
  calc grouping.own ours groups = grouping.own ours (first.withGroup first.group) :=
        congrArg (grouping.own ours) first.split
    _ = first.entry :: (first.behind.filter ours ++ grouping.own ours first.after) := by
        rw [own_withGroup, held_group]
        simp [first.filter_ahead, first.isOurs]

theorem others_withGroup {group : γ}
    (same : grouping.residue ours group = grouping.residue ours first.group)
    : grouping.others ours (first.withGroup group) = grouping.others ours groups := by
  calc grouping.others ours (first.withGroup group)
      = grouping.others ours (first.withGroup first.group) := by
        rw [withGroup, withGroup, others_append, others_append, others_cons, others_cons, same]
    _ = grouping.others ours groups := congrArg (grouping.others ours) first.split.symm

variable {entry : ε}

theorem residue_replaced (isOurs : ours entry = true)
    : grouping.residue ours (first.groupOf (first.ahead ++ entry :: first.behind))
      = grouping.residue ours first.group :=
  residue_withEntries first.listed (by simp [isOurs, first.isOurs]) (by simp)

theorem residue_taken (more : first.ahead ++ first.behind ≠ [])
    : grouping.residue ours (first.groupOf (first.ahead ++ first.behind))
      = grouping.residue ours first.group := by
  refine residue_withEntries first.listed (by simp [first.isOurs]) ?_
  simp only [List.append_eq_nil_iff, reduceCtorEq, and_false, iff_false]
  simpa using more

theorem others_put (isOurs : ours entry = true)
    : grouping.others ours (grouping.put groups first.place entry)
      = grouping.others ours groups := by
  rw [put_place]
  exact first.others_withGroup (first.residue_replaced isOurs)

theorem own_put (isOurs : ours entry = true)
    : grouping.own ours (grouping.put groups first.place entry)
      = entry :: (grouping.own ours groups).tail := by
  rw [put_place, own_withGroup, first.own_eq, held_of_entries (first.entries_groupOf _)]
  simp [first.filter_ahead, isOurs]

theorem takeOut_place
    : grouping.takeOut groups first.place
      = if first.ahead ++ first.behind = [] then first.before ++ first.after
        else first.withGroup (first.groupOf (first.ahead ++ first.behind)) := by
  have here : (first.withGroup (first.groupOf (first.ahead ++ first.behind)))[first.place.1]?.any
      (fun group => (grouping.held group).isEmpty) = (first.ahead ++ first.behind).isEmpty := by
    simp [withGroup, place, held_of_entries (first.entries_groupOf _)]
  rw [takeOut, splice_place]
  simp only [here, List.isEmpty_iff]
  by_cases alone : first.ahead ++ first.behind = []
  · rw [if_pos alone, if_pos alone]
    simp [withGroup, place, List.eraseIdx_append_of_length_le]
  · rw [if_neg alone, if_neg alone]

theorem residue_alone (alone : first.ahead ++ first.behind = [])
    : grouping.residue ours first.group = none := by
  obtain ⟨noneAhead, noneBehind⟩ := List.append_eq_nil_iff.mp alone
  refine residue_of_only first.listed (by simp) ?_
  simp [noneAhead, noneBehind, first.isOurs]

theorem others_takeOut
    : grouping.others ours (grouping.takeOut groups first.place)
      = grouping.others ours groups := by
  rw [takeOut_place]
  split
  · rename_i alone
    calc grouping.others ours (first.before ++ first.after)
        = grouping.others ours (first.withGroup first.group) := by
          rw [withGroup, others_append, others_append, others_cons, first.residue_alone alone]
          rfl
      _ = grouping.others ours groups := congrArg (grouping.others ours) first.split.symm
  · rename_i more
    exact first.others_withGroup (first.residue_taken more)

theorem own_splice_place
    : grouping.own ours (grouping.splice groups first.place)
      = (grouping.own ours groups).tail := by
  rw [splice_place, first.own_eq, List.tail_cons, own_withGroup,
    held_of_entries (first.entries_groupOf _), List.filter_append,
    first.filter_ahead, List.nil_append]

theorem own_takeOut
    : grouping.own ours (grouping.takeOut groups first.place)
      = (grouping.own ours groups).tail := by
  rw [← own_splice_place, takeOut_place, splice_place]
  split
  · rename_i alone
    rw [alone, own_append, own_withGroup, held_of_entries (first.entries_groupOf _),
      first.noneBefore]
    rfl
  · rfl

def replaced {group : γ} {entry : ε}
    (listed : grouping.entries group = some (first.ahead ++ entry :: first.behind))
    (isOurs : ours entry = true)
    : First grouping ours (first.withGroup group) where
  before := first.before
  group := group
  after := first.after
  ahead := first.ahead
  entry := entry
  behind := first.behind
  split := rfl
  listed := listed
  isOurs := isOurs
  noneBefore := first.noneBefore
  noneAhead := first.noneAhead

theorem own_replaced {group : γ}
    (listed : grouping.entries group = some (first.ahead ++ entry :: first.behind))
    (isOurs : ours entry = true)
    : grouping.own ours (first.withGroup group) = entry :: (grouping.own ours groups).tail := by
  rw [(first.replaced listed isOurs).own_eq, first.own_eq, List.tail_cons]
  rfl

end First

-- Taking out all entries of the kind, or all but the first

private def eraseAll (entries : List ε) (places : List Nat) : List ε :=
  places.foldr (fun index left => left.eraseIdx index) entries

private theorem eraseAll_shifted (entry : ε) (entries : List ε) (places : List Nat)
    : eraseAll (entry :: entries) (places.map (· + 1)) = entry :: eraseAll entries places := by
  induction places with
  | nil => rfl
  | cons index rest ih =>
    unfold eraseAll at ih ⊢
    rw [List.map_cons, List.foldr_cons, List.foldr_cons, ih, List.eraseIdx_cons_succ]

private theorem eraseAll_indices (entries : List ε)
    : eraseAll entries (indices ours entries) = entries.filter fun entry => !ours entry := by
  induction entries with
  | nil => rfl
  | cons entry rest ih =>
    have shifted := eraseAll_shifted entry rest (indices ours rest)
    unfold eraseAll at ih shifted ⊢
    rw [indices, List.foldr_append, shifted, ih]
    cases kind : ours entry <;> simp [kind]

private theorem eraseAll_tail {ahead behind : List ε} {entry : ε} (isOurs : ours entry = true)
    (noneAhead : ∀ other ∈ ahead, ours other = false)
    : eraseAll (ahead ++ entry :: behind) (indices ours (ahead ++ entry :: behind)).tail
      = ahead ++ entry :: behind.filter fun entry => !ours entry := by
  induction ahead with
  | nil =>
    have places : (indices ours (entry :: behind)).tail = (indices ours behind).map (· + 1) := by
      simp [indices, isOurs]
    rw [List.nil_append, places, eraseAll_shifted, eraseAll_indices]
    rfl
  | cons earlier rest ih =>
    rw [List.forall_mem_cons] at noneAhead
    have places : (indices ours (earlier :: rest ++ entry :: behind)).tail
        = (indices ours (rest ++ entry :: behind)).tail.map (· + 1) := by
      simp [indices, noneAhead.1, List.map_tail]
    rw [places, List.cons_append, eraseAll_shifted, ih noneAhead.2]
    rfl

theorem spliceAll_append (groups : List γ) (first second : List (Nat × Nat))
    : grouping.spliceAll groups (first ++ second)
      = grouping.spliceAll (grouping.spliceAll groups second) first :=
  List.foldr_append

theorem spliceAll_shifted (group : γ) (groups : List γ) (places : List (Nat × Nat))
    : grouping.spliceAll (group :: groups) (places.map fun place => (place.1 + 1, place.2))
      = group :: grouping.spliceAll groups places := by
  induction places with
  | nil => rfl
  | cons place rest ih =>
    unfold spliceAll at ih ⊢
    rw [List.map_cons, List.foldr_cons, List.foldr_cons, ih]
    simp [splice]

private theorem spliceAll_here (groups : List γ) (listed : grouping.entries group = some entries)
    (places : List Nat)
    : grouping.spliceAll (group :: groups) (places.map fun index => (0, index))
      = grouping.withEntries group (eraseAll entries places) :: groups := by
  induction places with
  | nil => simp [spliceAll, eraseAll, grouping.withEntries_entries listed]
  | cons index rest ih =>
    unfold spliceAll at ih ⊢
    unfold eraseAll at ih ⊢
    rw [List.map_cons, List.foldr_cons, List.foldr_cons, ih, splice, List.modify_zero_cons,
      held_of_entries (grouping.entries_withEntries listed _),
      grouping.withEntries_withEntries]

theorem spliceAll_findAll (groups : List γ)
    : grouping.spliceAll groups (grouping.findAll ours groups)
      = groups.map (grouping.strip ours) := by
  induction groups with
  | nil => rfl
  | cons group rest ih =>
    rw [findAll, spliceAll_append, spliceAll_shifted, ih, List.map_cons]
    cases listed : grouping.entries group with
    | none => simp [strip, listed, held, indices, spliceAll]
    | some entries =>
      rw [held_of_entries listed, spliceAll_here _ listed, eraseAll_indices]
      simp [strip, listed]

theorem findAll_eq_nil {groups : List γ}
    : grouping.findAll ours groups = [] ↔ grouping.own ours groups = [] := by
  have nothing : ∀ entries : List ε, indices ours entries = [] ↔ entries.filter ours = [] := by
    intro entries
    induction entries with
    | nil => simp [indices]
    | cons entry rest ih => cases kind : ours entry <;> simp [indices, kind, ih]
  induction groups with
  | nil => simp [findAll]
  | cons group rest ih => simp [findAll, nothing, ih]

namespace First

variable {groups : List γ} (first : First grouping ours groups)

theorem spliceAll_tail
    : grouping.spliceAll groups (grouping.findAll ours groups).tail
      = first.before
        ++ first.groupOf (first.ahead
            ++ first.entry :: first.behind.filter fun entry => !ours entry)
        :: first.after.map (grouping.strip ours) := by
  obtain ⟨before, group, after, ahead, entry, behind, rfl, listed, isOurs, noneBefore, noneAhead⟩
    := first
  simp only [groupOf]
  induction before with
  | nil =>
    have nonempty : indices ours (ahead ++ entry :: behind) ≠ [] := by
      intro empty
      have erased := @eraseAll_tail _ _ _ behind _ isOurs noneAhead
      have stripped := @eraseAll_indices _ ours (ahead ++ entry :: behind)
      rw [empty] at stripped
      have mine : entry ∈ (ahead ++ entry :: behind).filter fun entry => !ours entry := by
        rw [← stripped]
        simp [eraseAll]
      simp [isOurs] at mine
    have places : (grouping.findAll ours (group :: after)).tail
        = (indices ours (ahead ++ entry :: behind)).tail.map (fun index => (0, index))
          ++ (grouping.findAll ours after).map fun place => (place.1 + 1, place.2) := by
      rw [findAll, held_of_entries listed, List.tail_append_of_ne_nil (by simpa using nonempty),
        List.map_tail]
    rw [List.nil_append, places, spliceAll_append, spliceAll_shifted, spliceAll_findAll,
      spliceAll_here _ listed, eraseAll_tail isOurs noneAhead]
    rfl
  | cons earlier rest ih =>
    rw [own_cons, List.append_eq_nil_iff] at noneBefore
    have places : (grouping.findAll ours (earlier :: rest ++ group :: after)).tail
        = (grouping.findAll ours (rest ++ group :: after)).tail.map
            fun place => (place.1 + 1, place.2) := by
      have absent : indices ours (grouping.held earlier) = [] := by
        have nothing := @findAll_eq_nil _ _ grouping ours [earlier]
        simp only [findAll, own_cons, own_nil, List.append_nil, List.map_nil,
          List.map_eq_nil_iff, noneBefore.1, iff_true] at nothing
        exact nothing
      simp [findAll, absent, List.map_tail]
    rw [places, List.cons_append, spliceAll_shifted, ih noneBefore.2]
    rfl

theorem own_spliceAll_tail
    : grouping.own ours (grouping.spliceAll groups (grouping.findAll ours groups).tail)
      = [first.entry] := by
  have noneAfter : grouping.own ours (first.after.map (grouping.strip ours)) = [] := by
    rw [own_eq_nil]
    intro entry member
    obtain ⟨group, inside, held⟩ := List.mem_flatMap.mp member
    obtain ⟨before, -, rfl⟩ := List.mem_map.mp inside
    exact none_held_strip before entry held
  rw [first.spliceAll_tail, own_append, first.noneBefore, own_cons, noneAfter,
    held_of_entries (first.entries_groupOf _)]
  simp [first.filter_ahead, first.isOurs, List.filter_filter]

end First

-- The groups without the kind and without empty lists

theorem length_findAll (groups : List γ)
    : (grouping.findAll ours groups).length = (grouping.own ours groups).length := by
  have length_indices : ∀ entries : List ε,
      (indices ours entries).length = (entries.filter ours).length := by
    intro entries
    induction entries with
    | nil => rfl
    | cons entry rest ih => cases kind : ours entry <;> simp [indices, kind, ih]
  induction groups with
  | nil => rfl
  | cons group rest ih => simp [findAll, length_indices, ih]

theorem find_eq_head? (groups : List γ)
    : grouping.find ours groups = (grouping.findAll ours groups).head? := by
  have first : ∀ entries : List ε, (indices ours entries).head? = entries.findIdx? ours := by
    intro entries
    induction entries with
    | nil => rfl
    | cons entry rest ih => cases kind : ours entry <;> simp [indices, kind, List.findIdx?_cons, ih]
  induction groups with
  | nil => rfl
  | cons group rest ih =>
    rw [find, findAll, List.head?_append, List.head?_map, first, List.head?_map, ← ih]
    cases (grouping.held group).findIdx? ours <;> rfl

theorem first_of_single {groups : List γ} {place : Nat × Nat}
    (single : grouping.findAll ours groups = [place])
    : ∃ first : First grouping ours groups, first.place = place
      ∧ grouping.own ours groups = [first.entry]
      ∧ (grouping.held first.group)[place.2]? = some first.entry := by
  obtain ⟨first, rfl⟩ := first_of_find ((find_eq_head? groups).trans (by rw [single]; rfl))
  have one := @length_findAll _ _ grouping ours groups
  rw [single, first.own_eq] at one
  refine ⟨first, rfl, ?_, by simp [first.held_group, First.place]⟩
  rw [first.own_eq, List.eq_nil_of_length_eq_zero (Nat.succ.inj one.symm)]

@[simp] theorem bare_append (first second : List γ)
    : grouping.bare ours (first ++ second)
      = grouping.bare ours first ++ grouping.bare ours second := by
  simp [bare]

theorem bare_cons (group : γ) (groups : List γ)
    : grouping.bare ours (group :: groups)
      = grouping.bare ours [group] ++ grouping.bare ours groups := by
  rw [← bare_append]
  rfl

theorem bare_of_only (listed : grouping.entries group = some entries)
    (only : ∀ entry ∈ entries, ours entry = true)
    : grouping.bare ours [group] = [] := by
  have nothing : entries.filter (fun entry => !ours entry) = [] := by
    simpa [List.filter_eq_nil_iff] using only
  have stripped : grouping.strip ours group = grouping.withEntries group [] := by
    simp only [strip, listed, nothing]
  have uninhabited : grouping.inhabited (grouping.withEntries group []) = false := by
    rw [inhabited, grouping.entries_withEntries listed]
  simp [bare, stripped, uninhabited]

theorem bare_map_strip (groups : List γ)
    : grouping.bare ours (groups.map (grouping.strip ours)) = grouping.bare ours groups := by
  simp [bare, Function.comp_def, strip_strip]

theorem entries_of_uninhabited (empty : ¬ grouping.inhabited group = true)
    : grouping.entries group = some [] := by
  unfold inhabited at empty
  split at empty
  · assumption
  · simp at empty

theorem bare_filter_inhabited (groups : List γ)
    : grouping.bare ours (groups.filter grouping.inhabited) = grouping.bare ours groups := by
  induction groups with
  | nil => rfl
  | cons group rest ih =>
    rw [bare_cons, ← ih, List.filter_cons]
    split
    · rw [bare_cons]
    · rename_i empty
      rw [bare_of_only (entries_of_uninhabited empty) (by simp), List.nil_append]

theorem own_filter_inhabited (groups : List γ)
    : grouping.own ours (groups.filter grouping.inhabited) = grouping.own ours groups := by
  induction groups with
  | nil => rfl
  | cons group rest ih =>
    rw [own_cons, ← ih, List.filter_cons]
    split
    · rw [own_cons]
    · rename_i empty
      rw [held_of_entries (entries_of_uninhabited empty)]
      rfl

theorem bare_of_none (none_ours : grouping.own ours groups = [])
    : grouping.bare ours groups = groups.filter grouping.inhabited := by
  have same : groups.map (grouping.strip ours) = groups := by
    rw [own_eq_nil] at none_ours
    refine (List.map_congr_left fun group member => ?_).trans groups.map_id
    exact strip_of_none fun entry inside =>
      none_ours entry (List.mem_flatMap.mpr ⟨group, member, inside⟩)
  rw [bare, same]

theorem own_bare (groups : List γ) : grouping.own ours (grouping.bare ours groups) = [] := by
  rw [own_eq_nil]
  intro entry member
  obtain ⟨group, inside, held⟩ := List.mem_flatMap.mp member
  obtain ⟨before, -, rfl⟩ := List.mem_map.mp (List.mem_filter.mp inside).1
  exact none_held_strip before entry held

theorem bare_bare (groups : List γ)
    : grouping.bare ours (grouping.bare ours groups) = grouping.bare ours groups := by
  rw [bare_of_none (own_bare groups), bare, List.filter_filter]
  simp

namespace First

variable {groups : List γ} (first : First grouping ours groups)

theorem bare_withGroup {group : γ}
    (same : grouping.bare ours [group] = grouping.bare ours [first.group])
    : grouping.bare ours (first.withGroup group) = grouping.bare ours groups := by
  calc grouping.bare ours (first.withGroup group)
      = grouping.bare ours (first.withGroup first.group) := by
        rw [withGroup, withGroup, bare_append, bare_append, bare_cons group,
          bare_cons first.group, same]
    _ = grouping.bare ours groups := congrArg (grouping.bare ours) first.split.symm

theorem bare_splice_place
    : grouping.bare ours (grouping.splice groups first.place) = grouping.bare ours groups := by
  rw [splice_place]
  refine first.bare_withGroup ?_
  have agree : (first.ahead ++ first.behind).filter (fun entry => !ours entry)
      = (first.ahead ++ first.entry :: first.behind).filter fun entry => !ours entry := by
    simp [first.isOurs]
  simp only [bare, List.map_cons, List.map_nil, groupOf, strip_withEntries first.listed agree]

theorem bare_spliceAll_tail (first : First grouping ours groups)
    : grouping.bare ours (grouping.spliceAll groups (grouping.findAll ours groups).tail)
      = grouping.bare ours groups := by
  have agree : (first.ahead ++ first.entry :: first.behind.filter fun entry => !ours entry).filter
        (fun entry => !ours entry)
      = (first.ahead ++ first.entry :: first.behind).filter fun entry => !ours entry := by
    simp [first.isOurs]
  calc grouping.bare ours (grouping.spliceAll groups (grouping.findAll ours groups).tail)
      = grouping.bare ours (first.withGroup first.group) := by
        rw [first.spliceAll_tail, withGroup, bare_append, bare_append, bare_cons,
          bare_cons first.group, bare_map_strip]
        simp only [bare, List.map_cons, List.map_nil, groupOf,
          strip_withEntries first.listed agree]
    _ = grouping.bare ours groups := congrArg (grouping.bare ours) first.split.symm

end First

end Grouping
