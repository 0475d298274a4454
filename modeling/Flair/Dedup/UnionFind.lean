import Flair.Foundations.InsertionMap
import Flair.Foundations.ParentLinks

/-! The disjoint sets that near-duplicate edges join. Follows the class `UnionFind` of
`resources/dedup-cluster.ts`. A walk is bounded by the number of nodes, and no walk over a map
the class builds comes to that bound without an answer.
-/

namespace Flair.Dedup

open ParentLinks

structure UnionFind where
  parent : InsertionMap String String
  rank : InsertionMap String Nat
deriving DecidableEq

namespace UnionFind

def empty : UnionFind where
  parent := []
  rank := []

def ensure (uf : UnionFind) (x : String) : UnionFind :=
  if (uf.parent.get x).isSome then uf
  else { parent := uf.parent.set x x, rank := uf.rank.set x 0 }

/-- `while (this.parent.get(root) !== root) root = this.parent.get(root)`; no answer when the
steps run out.
-/
def walk (parent : InsertionMap String String) : Nat → String → Option String
  | 0, _ => none
  | steps + 1, root =>
    if parent.get root = some root then some root
    else (parent.get root).bind (walk parent steps)

/-- Path compression: every node on the way to the root is sent straight to it. -/
def compress (root : String)
    : Nat → InsertionMap String String → String → Option (InsertionMap String String)
  | 0, _, _ => none
  | steps + 1, parent, cur =>
    if parent.get cur = some root then some parent
    else (parent.get cur).bind (compress root steps (parent.set cur root))

def find (uf : UnionFind) (x : String) : Option (String × UnionFind) := do
  let uf := uf.ensure x
  let root ← walk uf.parent uf.parent.length x
  let parent ← compress root uf.parent.length uf.parent x
  return (root, { uf with parent := parent })

def union (uf : UnionFind) (a b : String) : Option UnionFind := do
  let (ra, uf) ← uf.find a
  let (rb, uf) ← uf.find b
  if ra = rb then return uf
  let rankA := (uf.rank.get ra).getD 0
  let rankB := (uf.rank.get rb).getD 0
  if rankA < rankB then return { uf with parent := uf.parent.set ra rb }
  else if rankB < rankA then return { uf with parent := uf.parent.set rb ra }
  else return { parent := uf.parent.set rb ra, rank := uf.rank.set ra (rankA + 1) }

def nodes (uf : UnionFind) : List String := uf.parent.map Prod.fst

def rankOf (uf : UnionFind) (x : String) : Nat := (uf.rank.get x).getD 0

-- The forest

structure Forest (uf : UnionFind) : Prop where
  distinct : uf.parent.Distinct
  closed : Closed uf.parent.get
  rising : Rising uf.parent.get uf.rankOf

abbrev LeadsTo (uf : UnionFind) (x root : String) : Prop := Leads uf.parent.get x root

variable {uf : UnionFind} {x y root : String}

theorem forest_empty : Forest empty where
  distinct := List.nodup_nil
  closed _ _ link := nomatch link
  rising _ _ link := nomatch link

theorem mem_nodes : x ∈ uf.nodes ↔ (uf.parent.get x).isSome := by
  constructor
  · intro member
    obtain ⟨entry, inside, rfl⟩ := List.mem_map.mp member
    exact InsertionMap.isSome_get_of_mem inside
  · intro known
    obtain ⟨above, link⟩ := Option.isSome_iff_exists.mp known
    exact List.mem_map_of_mem (InsertionMap.mem_of_get link)

theorem length_nodes : uf.nodes.length = uf.parent.length := List.length_map _

theorem Forest.exists_root (h : Forest uf) (known : (uf.parent.get x).isSome)
    : ∃ root, uf.LeadsTo x root :=
  exists_leads h.rising h.closed (fun _ => mem_nodes.mpr) known

theorem get_set_update (map : InsertionMap String String) (key value : String)
    : (map.set key value).get = Function.update map.get key (some value) := by
  funext other
  rw [InsertionMap.get_set, Function.update_apply]

theorem nodes_set (known : (uf.parent.get x).isSome) (value : String)
    : (uf.parent.set x value).map Prod.fst = uf.nodes := by
  obtain ⟨parent, rank⟩ := uf
  unfold nodes InsertionMap.set
  induction parent with
  | nil => cases known
  | cons entry rest ih =>
    obtain ⟨first, above⟩ := entry
    unfold InsertionMap.modify
    split
    · rfl
    · rename_i apart
      simp only [InsertionMap.get, if_neg apart] at known
      simp only [List.map_cons, ih known]

-- Adding a node

theorem ensure_known (known : (uf.parent.get x).isSome) : uf.ensure x = uf := if_pos known

theorem known_ensure : ((uf.ensure x).parent.get y).isSome ↔ (uf.parent.get y).isSome ∨ y = x := by
  unfold ensure
  split
  · rename_i known
    exact ⟨Or.inl, fun either => either.elim id fun same => same ▸ known⟩
  · by_cases same : y = x <;> simp [same]

theorem nodes_ensure : (uf.ensure x).nodes = if x ∈ uf.nodes then uf.nodes else uf.nodes ++ [x] := by
  by_cases known : (uf.parent.get x).isSome
  · rw [ensure_known known, if_pos (mem_nodes.mpr known)]
  have gone : uf.parent.get x = none := by simpa using known
  rw [if_neg (mem_nodes.not.mpr known), ensure, if_neg known, nodes,
    InsertionMap.set_fresh gone, List.map_append]
  rfl

theorem Forest.ensure (h : Forest uf) : Forest (uf.ensure x) := by
  unfold UnionFind.ensure
  split
  · exact h
  rename_i fresh
  have gone : uf.parent.get x = none := by simpa using fresh
  refine ⟨h.distinct.modify _, fun node above link => ?_, fun node above link inner => ?_⟩
  · rw [InsertionMap.get_set] at link ⊢
    by_cases top : above = x
    · simp [top]
    rw [if_neg top]
    by_cases same : node = x
    · rw [if_pos same] at link
      exact absurd (Option.some.inj link).symm top
    · rw [if_neg same] at link
      exact h.closed _ _ link
  · rw [InsertionMap.get_set] at link
    by_cases same : node = x
    · rw [if_pos same] at link
      exact absurd ((Option.some.inj link).symm.trans same.symm) inner
    rw [if_neg same] at link
    have apart : above ≠ x := by
      rintro rfl
      have known := h.closed _ _ link
      simp [gone] at known
    have lower := h.rising _ _ link inner
    simpa [rankOf, same, apart] using lower

theorem leadsTo_ensure (h : Forest uf)
    : (uf.ensure x).LeadsTo y root
        ↔ uf.LeadsTo y root ∨ (uf.parent.get x = none ∧ y = x ∧ root = x) := by
  by_cases known : (uf.parent.get x).isSome
  · rw [ensure_known known]
    refine ⟨Or.inl, fun either => either.elim id ?_⟩
    rintro ⟨gone, -⟩
    simp [gone] at known
  have gone : uf.parent.get x = none := by simpa using known
  have added : (uf.ensure x).parent.get = Function.update uf.parent.get x (some x) := by
    rw [UnionFind.ensure, if_neg known]
    exact get_set_update ..
  have self : Leads (Function.update uf.parent.get x (some x)) x x :=
    .of_top (Function.update_self ..)
  have off {top : String} {passed : List String} (climb : Climb uf.parent.get y passed top)
      : x ∉ passed := by
    intro member
    have known' := climb.known member
    simp [gone] at known'
  rw [LeadsTo, added]
  constructor
  · intro leads
    by_cases same : y = x
    · subst same
      exact .inr ⟨gone, rfl, leads.unique self⟩
    have known' := leads.known
    rw [Function.update_of_ne same] at known'
    obtain ⟨top, own⟩ := h.exists_root known'
    obtain ⟨passed, climb⟩ := own
    have kept : Leads (Function.update uf.parent.get x (some x)) y top :=
      ⟨_, climb.off (off climb)⟩
    exact .inl (leads.unique kept ▸ ⟨_, climb⟩)
  · rintro (⟨passed, climb⟩ | ⟨-, rfl, rfl⟩)
    · exact ⟨_, climb.off (off climb)⟩
    · exact self

-- Finding a root

theorem walk_climb {parent : InsertionMap String String} {passed : List String}
    (climb : Climb parent.get x passed root) {steps : Nat} (enough : passed.length ≤ steps)
    : walk parent steps x = some root := by
  induction climb generalizing steps with
  | root top =>
    obtain ⟨steps, rfl⟩ := Nat.exists_eq_succ_of_ne_zero (Nat.ne_zero_of_lt enough)
    rw [walk, if_pos top]
  | up link inner rest ih =>
    obtain ⟨steps, rfl⟩ := Nat.exists_eq_succ_of_ne_zero (Nat.ne_zero_of_lt enough)
    have apart : parent.get _ ≠ some _ := fun same =>
      inner (Option.some.inj (link.symm.trans same))
    rw [walk, if_neg apart, link, Option.bind_some]
    exact ih (by simpa using enough)

/-- Nothing that is asked of a forest's nodes and roots differs between the two. -/
structure SameRoots (before after : UnionFind) : Prop where
  forest : Forest after
  nodes : after.nodes = before.nodes
  rank : after.rank = before.rank
  leads : ∀ y root, after.LeadsTo y root ↔ before.LeadsTo y root

theorem SameRoots.refl (h : Forest uf) : SameRoots uf uf where
  forest := h
  nodes := rfl
  rank := rfl
  leads _ _ := Iff.rfl

theorem SameRoots.trans {first second third : UnionFind} (h : SameRoots first second)
    (h' : SameRoots second third)
    : SameRoots first third where
  forest := h'.forest
  nodes := h'.nodes.trans h.nodes
  rank := h'.rank.trans h.rank
  leads y root := (h'.leads y root).trans (h.leads y root)

theorem sameRoots_redirect (h : Forest uf) (own : uf.LeadsTo x root)
    : SameRoots uf { uf with parent := uf.parent.set x root } where
  forest := by
    refine ⟨h.distinct.modify _, ?_, ?_⟩
    · change Closed (uf.parent.set x root).get
      rw [get_set_update]
      exact h.closed.update (Option.isSome_of_eq_some own.top)
    · change Rising (uf.parent.set x root).get uf.rankOf
      rw [get_set_update]
      exact h.rising.update fun inner => own.rank_lt h.rising inner
  nodes := nodes_set own.known root
  rank := rfl
  leads y top := by
    change Leads (uf.parent.set x root).get y top ↔ _
    rw [get_set_update]
    exact leads_redirect own

theorem compress_climb (h : Forest uf) {passed : List String}
    (climb : Climb uf.parent.get x passed root) {steps : Nat} (enough : passed.length ≤ steps)
    : ∃ parent, compress root steps uf.parent x = some parent
        ∧ SameRoots uf { uf with parent := parent } := by
  induction steps generalizing uf x passed with
  | zero =>
    cases climb <;> simp at enough
  | succ steps ih =>
    unfold compress
    split
    · exact ⟨_, rfl, .refl h⟩
    rename_i inner
    cases climb with
    | root top => exact absurd top inner
    | @up _ above _ passed link apart rest =>
      have own : uf.LeadsTo x root := .up link ⟨_, rest⟩
      have step := sameRoots_redirect h own
      have rest' : Climb (uf.parent.set x root).get above passed root := by
        rw [get_set_update]
        exact rest.off (List.nodup_cons.mp ((Climb.up link apart rest).nodup h.rising)).1
      obtain ⟨parent, ran, same⟩ := ih step.forest rest' (by simpa using enough)
      refine ⟨parent, ?_, step.trans same⟩
      rw [link, Option.bind_some]
      exact ran

theorem find_spec (h : Forest uf) (x : String)
    : ∃ root after, uf.find x = some (root, after) ∧ SameRoots (uf.ensure x) after
        ∧ after.LeadsTo x root := by
  have forest := @Forest.ensure _ x h
  have known : ((uf.ensure x).parent.get x).isSome := known_ensure.mpr (.inr rfl)
  obtain ⟨root, passed, climb⟩ := forest.exists_root known
  have enough : passed.length ≤ (uf.ensure x).parent.length :=
    (climb.length_le forest.rising fun _ => mem_nodes.mpr).trans length_nodes.le
  obtain ⟨parent, ran, same⟩ := compress_climb forest climb enough
  refine ⟨root, _, ?_, same, (same.leads x root).mpr ⟨_, climb⟩⟩
  rw [find]
  simp only [walk_climb climb enough, ran, Option.bind_eq_bind, Option.bind_some, Option.pure_def]

-- Joining two classes

def Together (uf : UnionFind) (x y : String) : Prop :=
  ∃ root, uf.LeadsTo x root ∧ uf.LeadsTo y root

theorem Together.symm (h : uf.Together x y) : uf.Together y x := by
  obtain ⟨root, first, second⟩ := h
  exact ⟨root, second, first⟩

theorem Together.trans {z : String} (h : uf.Together x y) (h' : uf.Together y z)
    : uf.Together x z := by
  obtain ⟨root, first, second⟩ := h
  obtain ⟨root', third, fourth⟩ := h'
  obtain rfl := second.unique third
  exact ⟨_, first, fourth⟩

theorem Together.node (h : uf.Together x y) : x ∈ uf.nodes :=
  h.elim fun _ ways => mem_nodes.mpr ways.1.known

theorem together_of_leads (leads : uf.LeadsTo x root)
    : uf.Together x y ↔ uf.LeadsTo y root := by
  constructor
  · rintro ⟨top, first, second⟩
    exact leads.unique first ▸ second
  · exact fun second => ⟨root, leads, second⟩

variable {before after : UnionFind}

theorem SameRoots.together (h : SameRoots before after)
    : after.Together x y ↔ before.Together x y :=
  exists_congr fun root => and_congr (h.leads x root) (h.leads y root)

theorem mem_nodes_ensure : y ∈ (uf.ensure x).nodes ↔ y ∈ uf.nodes ∨ y = x := by
  rw [mem_nodes, mem_nodes, known_ensure]

theorem together_ensure {z : String} (h : Forest uf)
    : (uf.ensure x).Together y z
        ↔ uf.Together y z ∨ (x ∉ uf.nodes ∧ y = x ∧ z = x) := by
  have fresh : uf.parent.get x = none ↔ x ∉ uf.nodes := by
    rw [mem_nodes, Option.not_isSome_iff_eq_none]
  constructor
  · rintro ⟨root, wayY, wayZ⟩
    rcases (leadsTo_ensure h).mp wayY with first | ⟨gone, rfl, rfl⟩
    · rcases (leadsTo_ensure h).mp wayZ with second | ⟨gone, rfl, rfl⟩
      · exact .inl ⟨root, first, second⟩
      · exact nomatch gone.symm.trans first.top
    · rcases (leadsTo_ensure h).mp wayZ with second | ⟨-, rfl, -⟩
      · exact nomatch gone.symm.trans second.top
      · exact .inr ⟨fresh.mp gone, rfl, rfl⟩
  · rintro (⟨root, first, second⟩ | ⟨gone, rfl, rfl⟩)
    · exact ⟨root, (leadsTo_ensure h).mpr (.inl first), (leadsTo_ensure h).mpr (.inl second)⟩
    · have self := (leadsTo_ensure h).mpr (.inr ⟨fresh.mpr gone, rfl, rfl⟩)
      exact ⟨_, self, self⟩

variable {low high : String}

theorem together_link (lowTop : uf.LeadsTo low low) (highTop : uf.LeadsTo high high)
    (apart : low ≠ high) (rank : InsertionMap String Nat)
    : ({ parent := uf.parent.set low high, rank := rank } : UnionFind).Together x y
        ↔ uf.Together x y ∨ (uf.Together x low ∧ uf.Together high y)
          ∨ (uf.Together x high ∧ uf.Together low y) := by
  have leads (z top : String)
      : Leads (uf.parent.set low high).get z top
          ↔ uf.LeadsTo z top ∧ top ≠ low ∨ uf.LeadsTo z low ∧ top = high := by
    rw [get_set_update]
    exact leads_link lowTop.top highTop.top apart
  have below (z : String) : uf.Together z low ↔ uf.LeadsTo z low :=
    ⟨fun both => (together_of_leads lowTop).mp both.symm, fun way => ⟨low, way, lowTop⟩⟩
  have above (z : String) : uf.Together z high ↔ uf.LeadsTo z high :=
    ⟨fun both => (together_of_leads highTop).mp both.symm, fun way => ⟨high, way, highTop⟩⟩
  rw [below, above, together_of_leads lowTop, together_of_leads highTop]
  constructor
  · rintro ⟨top, wayX, wayY⟩
    rcases (leads x top).mp wayX with ⟨first, inner⟩ | ⟨first, rfl⟩
    · rcases (leads y top).mp wayY with ⟨second, -⟩ | ⟨second, rfl⟩
      · exact .inl ⟨top, first, second⟩
      · exact .inr (.inr ⟨first, second⟩)
    · rcases (leads y _).mp wayY with ⟨second, -⟩ | ⟨second, -⟩
      · exact .inr (.inl ⟨first, second⟩)
      · exact .inl ⟨low, first, second⟩
  · rintro (⟨top, first, second⟩ | ⟨first, second⟩ | ⟨first, second⟩)
    · by_cases inner : top = low
      · subst inner
        exact ⟨high, (leads x high).mpr (.inr ⟨first, rfl⟩), (leads y high).mpr (.inr ⟨second, rfl⟩)⟩
      · exact ⟨top, (leads x top).mpr (.inl ⟨first, inner⟩), (leads y top).mpr (.inl ⟨second, inner⟩)⟩
    · exact ⟨high, (leads x high).mpr (.inr ⟨first, rfl⟩),
        (leads y high).mpr (.inl ⟨second, apart.symm⟩)⟩
    · exact ⟨high, (leads x high).mpr (.inl ⟨first, apart.symm⟩),
        (leads y high).mpr (.inr ⟨second, rfl⟩)⟩

theorem forest_link {rank : InsertionMap String Nat} (h : Forest uf)
    (highTop : uf.LeadsTo high high) (kept : Rising uf.parent.get fun z => (rank.get z).getD 0)
    (higher : (rank.get low).getD 0 < (rank.get high).getD 0)
    : Forest { parent := uf.parent.set low high, rank := rank } where
  distinct := h.distinct.modify _
  closed := by
    change Closed (uf.parent.set low high).get
    rw [get_set_update]
    exact h.closed.update highTop.known
  rising := by
    change Rising (uf.parent.set low high).get fun z => (rank.get z).getD 0
    rw [get_set_update]
    exact kept.update fun _ => higher

/-- What a `union` of two nodes makes of the sets, in terms of the sets with both added. -/
structure Joined (base after : UnionFind) (a b : String) : Prop where
  forest : Forest after
  nodes : ∀ x, x ∈ after.nodes ↔ x ∈ base.nodes
  together : ∀ x y, after.Together x y ↔ base.Together x y
    ∨ (base.Together x a ∧ base.Together b y) ∨ (base.Together x b ∧ base.Together a y)

theorem joins_congr {a b : String} (sideA : uf.Together a low) (sideB : uf.Together b high)
    : uf.Together x low ∧ uf.Together high y ∨ uf.Together x high ∧ uf.Together low y
      ↔ uf.Together x a ∧ uf.Together b y ∨ uf.Together x b ∧ uf.Together a y := by
  refine or_congr (and_congr ?_ ?_) (and_congr ?_ ?_)
  · exact ⟨fun way => way.trans sideA.symm, fun way => way.trans sideA⟩
  · exact ⟨fun way => sideB.trans way, fun way => sideB.symm.trans way⟩
  · exact ⟨fun way => way.trans sideB.symm, fun way => way.trans sideB⟩
  · exact ⟨fun way => sideA.trans way, fun way => sideA.symm.trans way⟩

theorem joined_link {a b : String} {rank : InsertionMap String Nat} (h : Forest uf)
    (lowTop : uf.LeadsTo low low) (highTop : uf.LeadsTo high high) (apart : low ≠ high)
    (ends : uf.LeadsTo a low ∧ uf.LeadsTo b high ∨ uf.LeadsTo a high ∧ uf.LeadsTo b low)
    (kept : Rising uf.parent.get fun z => (rank.get z).getD 0)
    (higher : (rank.get low).getD 0 < (rank.get high).getD 0)
    : Joined uf { parent := uf.parent.set low high, rank := rank } a b where
  forest := forest_link h highTop kept higher
  nodes x := by
    change x ∈ (uf.parent.set low high).map Prod.fst ↔ _
    rw [nodes_set lowTop.known]
  together x y := by
    have meet {z top : String} (way : uf.LeadsTo z top) (top' : uf.LeadsTo top top)
        : uf.Together z top := ⟨top, way, top'⟩
    rw [together_link lowTop highTop apart]
    refine or_congr_right ?_
    rcases ends with ⟨first, second⟩ | ⟨first, second⟩
    · exact joins_congr (meet first lowTop) (meet second highTop)
    · rw [or_comm]
      exact joins_congr (meet first highTop) (meet second lowTop)

theorem rising_raise (h : Forest uf) (highTop : uf.LeadsTo high high)
    : Rising uf.parent.get fun z => ((uf.rank.set high (uf.rankOf high + 1)).get z).getD 0 := by
  intro node above link inner
  have lower := h.rising _ _ link inner
  have below : node ≠ high := by
    rintro rfl
    exact inner (Option.some.inj (link.symm.trans highTop.top))
  simp only [InsertionMap.get_set, if_neg below]
  split
  · rename_i same
    subst same
    exact lower.trans (Nat.lt_succ_self _)
  · exact lower

theorem SameRoots.ensure (h : SameRoots before after) (forest : Forest before) (x : String)
    : SameRoots (before.ensure x) (after.ensure x) where
  forest := h.forest.ensure
  nodes := by rw [nodes_ensure, nodes_ensure, h.nodes]
  rank := by
    have same : (after.parent.get x).isSome ↔ (before.parent.get x).isSome := by
      rw [← mem_nodes, ← mem_nodes, h.nodes]
    by_cases known : (before.parent.get x).isSome
    · rw [ensure_known known, ensure_known (same.mpr known), h.rank]
    · rw [UnionFind.ensure, UnionFind.ensure, if_neg known, if_neg (mt same.mp known), h.rank]
  leads y root := by
    have fresh : after.parent.get x = none ↔ before.parent.get x = none := by
      rw [← Option.not_isSome_iff_eq_none, ← Option.not_isSome_iff_eq_none, ← mem_nodes,
        ← mem_nodes, h.nodes]
    rw [leadsTo_ensure h.forest, leadsTo_ensure forest, h.leads, fresh]

theorem Joined.of_sameRoots {base : UnionFind} {a b : String} (h : Joined base after a b)
    (same : SameRoots before base)
    : Joined before after a b where
  forest := h.forest
  nodes x := by rw [h.nodes, same.nodes]
  together x y := by
    rw [h.together, same.together, same.together, same.together, same.together, same.together]

theorem union_spec (h : Forest uf) (a b : String)
    : ∃ after, uf.union a b = some after ∧ Joined ((uf.ensure a).ensure b) after a b := by
  obtain ⟨ra, first, foundA, sameA, leadsA⟩ := find_spec h a
  obtain ⟨rb, second, foundB, sameB, leadsB⟩ := find_spec sameA.forest b
  have base : SameRoots ((uf.ensure a).ensure b) second := (sameA.ensure h.ensure b).trans sameB
  have wayA : second.LeadsTo a ra := by
    rw [sameB.leads, leadsTo_ensure sameA.forest]
    exact .inl leadsA
  have topA : second.LeadsTo ra ra := .of_top wayA.top
  have topB : second.LeadsTo rb rb := .of_top leadsB.top
  rw [union, foundA]
  simp only [foundB, Option.bind_eq_bind, Option.bind_some, Option.pure_def]
  by_cases same : ra = rb
  · subst same
    rw [if_pos rfl]
    have meet : second.Together a b := ⟨ra, wayA, leadsB⟩
    refine ⟨second, rfl, .of_sameRoots ⟨base.forest, fun _ => Iff.rfl, fun x y => ?_⟩ base⟩
    refine ⟨.inl, ?_⟩
    rintro (way | ⟨first, next⟩ | ⟨first, next⟩)
    · exact way
    · exact first.trans (meet.trans next)
    · exact first.trans (meet.symm.trans next)
  rw [if_neg same]
  by_cases lower : (second.rank.get ra).getD 0 < (second.rank.get rb).getD 0
  · rw [if_pos lower]
    exact ⟨_, rfl, (joined_link base.forest topA topB same (.inl ⟨wayA, leadsB⟩)
      base.forest.rising lower).of_sameRoots base⟩
  rw [if_neg lower]
  by_cases higher : (second.rank.get rb).getD 0 < (second.rank.get ra).getD 0
  · rw [if_pos higher]
    exact ⟨_, rfl, (joined_link base.forest topB topA (Ne.symm same) (.inr ⟨wayA, leadsB⟩)
      base.forest.rising higher).of_sameRoots base⟩
  rw [if_neg higher]
  refine ⟨_, rfl, (joined_link base.forest topB topA (Ne.symm same) (.inr ⟨wayA, leadsB⟩)
    (rising_raise base.forest topA) ?_).of_sameRoots base⟩
  simp only [InsertionMap.get_set, if_neg (Ne.symm same), ↓reduceIte, Option.getD_some]
  change ¬second.rankOf ra < _ at lower
  omega

end UnionFind

end Flair.Dedup
