import Mathlib.Algebra.Order.BigOperators.Group.List
import Mathlib.Algebra.Order.Group.Nat
import Mathlib.Data.List.Nodup
import Mathlib.Data.List.Perm.Subperm

/-! Forests given by parent links, where a root is its own parent. Every node leads to one
root; sending a node to its own root moves no node to another one, and putting a root below
another joins the two classes.
-/

namespace ParentLinks

universe u

variable {α : Type u}

inductive Climb (parent : α → Option α) : α → List α → α → Prop where
  | root {node : α} (top : parent node = some node) : Climb parent node [node] node
  | up {node above root : α} {passed : List α} (link : parent node = some above)
      (inner : above ≠ node) (rest : Climb parent above passed root)
      : Climb parent node (node :: passed) root

def Leads (parent : α → Option α) (node root : α) : Prop := ∃ passed, Climb parent node passed root

def Rising (parent : α → Option α) (rank : α → Nat) : Prop :=
  ∀ node above, parent node = some above → above ≠ node → rank node < rank above

def Closed (parent : α → Option α) : Prop :=
  ∀ node above, parent node = some above → (parent above).isSome

variable {parent : α → Option α} {node root other : α} {passed : List α} {rank : α → Nat}

theorem Climb.top (h : Climb parent node passed root) : parent root = some root := by
  induction h with
  | root top => exact top
  | up _ _ _ ih => exact ih

theorem Climb.unique (h : Climb parent node passed root) {passed' : List α} {root' : α}
    (again : Climb parent node passed' root')
    : passed = passed' ∧ root = root' := by
  induction h generalizing passed' root' with
  | root top =>
    cases again with
    | root => exact ⟨rfl, rfl⟩
    | up link inner => exact absurd (Option.some.inj (link.symm.trans top)) inner
  | up link inner rest ih =>
    cases again with
    | root top => exact absurd (Option.some.inj (link.symm.trans top)) inner
    | up link' inner' rest' =>
      obtain rfl := Option.some.inj (link.symm.trans link')
      obtain ⟨rfl, rfl⟩ := ih rest'
      exact ⟨rfl, rfl⟩

theorem Leads.unique (h : Leads parent node root) (again : Leads parent node other)
    : root = other := by
  obtain ⟨_, climb⟩ := h
  obtain ⟨_, climb'⟩ := again
  exact (climb.unique climb').2

theorem Leads.of_top (top : parent root = some root) : Leads parent root root :=
  ⟨_, .root top⟩

theorem Leads.top (h : Leads parent node root) : parent root = some root := h.elim fun _ => Climb.top

theorem Leads.eq_of_top (h : Leads parent node root) (top : parent node = some node)
    : root = node :=
  h.unique (.of_top top)

theorem Leads.up {above : α} (link : parent node = some above) (h : Leads parent above root)
    : Leads parent node root := by
  by_cases inner : above = node
  · exact inner ▸ h
  · obtain ⟨passed, climb⟩ := h
    exact ⟨_, .up link inner climb⟩

theorem Climb.known (h : Climb parent node passed root) (member : other ∈ passed)
    : (parent other).isSome := by
  induction h with
  | root top =>
    obtain rfl := List.mem_singleton.mp member
    exact Option.isSome_of_eq_some top
  | up link _ _ ih =>
    rcases List.mem_cons.mp member with rfl | later
    · exact Option.isSome_of_eq_some link
    · exact ih later

theorem Leads.known (h : Leads parent node root) : (parent node).isSome := by
  obtain ⟨_, climb⟩ := h
  cases climb with
  | root top => exact Option.isSome_of_eq_some top
  | up link => exact Option.isSome_of_eq_some link

-- Ranks

theorem Climb.rank_le (h : Climb parent node passed root) (rising : Rising parent rank)
    (member : other ∈ passed)
    : rank node ≤ rank other := by
  induction h with
  | root => rw [List.mem_singleton.mp member]
  | up link inner _ ih =>
    rcases List.mem_cons.mp member with rfl | later
    · exact le_refl _
    · exact (rising _ _ link inner).le.trans (ih later)

theorem Climb.nodup (h : Climb parent node passed root) (rising : Rising parent rank)
    : passed.Nodup := by
  induction h with
  | root => exact List.nodup_singleton _
  | up link inner rest ih =>
    refine List.nodup_cons.mpr ⟨fun again => ?_, ih⟩
    have lower := rising _ _ link inner
    have higher := rest.rank_le rising again
    omega

theorem Climb.root_mem (h : Climb parent node passed root) : root ∈ passed := by
  induction h with
  | root => exact List.mem_singleton_self _
  | up _ _ _ ih => exact List.mem_cons_of_mem _ ih

theorem Leads.rank_lt (h : Leads parent node root) (rising : Rising parent rank)
    (inner : root ≠ node)
    : rank node < rank root := by
  obtain ⟨_, climb⟩ := h
  cases climb with
  | root => exact absurd rfl inner
  | up link apart rest => exact (rising _ _ link apart).trans_le (rest.rank_le rising rest.root_mem)

theorem Climb.length_le (h : Climb parent node passed root) (rising : Rising parent rank)
    {nodes : List α} (all : ∀ node, (parent node).isSome → node ∈ nodes)
    : passed.length ≤ nodes.length :=
  ((h.nodup rising).subperm fun _ member => all _ (h.known member)).length_le

theorem exists_leads (rising : Rising parent rank) (closed : Closed parent) {nodes : List α}
    (all : ∀ node, (parent node).isSome → node ∈ nodes) (known : (parent node).isSome)
    : ∃ root, Leads parent node root := by
  obtain ⟨bound, most⟩ : ∃ bound, ∀ node ∈ nodes, rank node ≤ bound := by
    refine ⟨(nodes.map rank).sum, fun node member => ?_⟩
    exact List.le_sum_of_mem (List.mem_map_of_mem member)
  induction left : bound - rank node using Nat.strong_induction_on generalizing node with
  | _ left ih =>
    obtain ⟨above, link⟩ := Option.isSome_iff_exists.mp known
    by_cases inner : above = node
    · exact ⟨node, .of_top (inner ▸ link)⟩
    have higher := rising _ _ link inner
    have known' := closed _ _ link
    have below := most above (all _ known')
    obtain ⟨root, leads⟩ := ih (bound - rank above) (by omega) known' rfl
    exact ⟨root, leads.up link⟩

-- Changes of one link

variable [DecidableEq α]

theorem Climb.off (h : Climb parent node passed root) {target : Option α} (apart : other ∉ passed)
    : Climb (Function.update parent other target) node passed root := by
  induction h with
  | root top =>
    refine .root ?_
    rwa [Function.update_of_ne (fun same => apart (by simp [same]))]
  | up link inner rest ih =>
    obtain ⟨here, later⟩ := not_or.mp (List.mem_cons.not.mp apart)
    exact .up (by rwa [Function.update_of_ne (Ne.symm here)]) inner (ih later)

theorem leads_redirect (own : Leads parent other root) {top : α}
    : Leads (Function.update parent other (some root)) node top ↔ Leads parent node top := by
  constructor
  · rintro ⟨passed, climb⟩
    induction climb with
    | @root node here =>
      by_cases same : node = other
      · subst same
        rw [Function.update_self] at here
        exact Option.some.inj here ▸ own
      · rw [Function.update_of_ne same] at here
        exact .of_top here
    | @up node above top passed link inner _ ih =>
      by_cases same : node = other
      · subst same
        rw [Function.update_self] at link
        cases link
        rw [ih.eq_of_top own.top]
        exact own
      · rw [Function.update_of_ne same] at link
        exact ih.up link
  · rintro ⟨passed, climb⟩
    have kept : Function.update parent other (some root) root = some root := by
      by_cases same : root = other
      · rw [same, Function.update_self]
      · rw [Function.update_of_ne same, own.top]
    induction climb with
    | @root node here =>
      by_cases same : node = other
      · subst same
        obtain rfl := own.eq_of_top here
        exact .of_top kept
      · exact .of_top (by rwa [Function.update_of_ne same])
    | @up node above top passed link inner rest ih =>
      by_cases same : node = other
      · subst same
        obtain rfl := own.unique (.up link ⟨_, rest⟩)
        exact .up (Function.update_self ..) (.of_top kept)
      · exact ih.up (by rwa [Function.update_of_ne same])

theorem leads_link {low high : α} (lowTop : parent low = some low)
    (highTop : parent high = some high) (apart : low ≠ high) {top : α}
    : Leads (Function.update parent low (some high)) node top
        ↔ Leads parent node top ∧ top ≠ low ∨ Leads parent node low ∧ top = high := by
  have kept : Function.update parent low (some high) high = some high := by
    rw [Function.update_of_ne apart.symm, highTop]
  constructor
  · rintro ⟨passed, climb⟩
    induction climb with
    | @root node here =>
      by_cases same : node = low
      · subst same
        rw [Function.update_self] at here
        exact absurd (Option.some.inj here).symm apart
      · rw [Function.update_of_ne same] at here
        exact .inl ⟨.of_top here, same⟩
    | @up node above top passed link inner rest ih =>
      by_cases same : node = low
      · subst same
        rw [Function.update_self] at link
        cases link
        rcases ih with ⟨leads, -⟩ | ⟨-, rfl⟩
        · exact .inr ⟨.of_top lowTop, leads.eq_of_top highTop⟩
        · exact .inr ⟨.of_top lowTop, rfl⟩
      · rw [Function.update_of_ne same] at link
        exact ih.imp (fun way => ⟨way.1.up link, way.2⟩) fun way => ⟨way.1.up link, way.2⟩
  · have lowered : Leads (Function.update parent low (some high)) low high :=
      .up (Function.update_self ..) (.of_top kept)
    have keep : ∀ {node top}, Leads parent node top →
        Leads (Function.update parent low (some high)) node (if top = low then high else top) := by
      rintro node top ⟨passed, climb⟩
      induction climb with
      | @root node here =>
        by_cases same : node = low
        · rw [if_pos same, same]
          exact lowered
        · rw [if_neg same]
          exact .of_top (by rwa [Function.update_of_ne same])
      | @up node above top passed link inner rest ih =>
        have same : node ≠ low := by
          rintro rfl
          exact inner (Option.some.inj (link.symm.trans lowTop))
        exact ih.up (by rwa [Function.update_of_ne same])
    rintro (⟨leads, other⟩ | ⟨leads, rfl⟩)
    · have way := keep leads
      rwa [if_neg other] at way
    · have way := keep leads
      rwa [if_pos rfl] at way

theorem Closed.update (closed : Closed parent) (known : (parent root).isSome)
    : Closed (Function.update parent other (some root)) := by
  intro node above link
  by_cases top : above = other
  · rw [top, Function.update_self]
    rfl
  rw [Function.update_of_ne top]
  by_cases same : node = other
  · rw [same, Function.update_self] at link
    exact Option.some.inj link ▸ known
  · rw [Function.update_of_ne same] at link
    exact closed _ _ link

theorem Rising.update (rising : Rising parent rank) (higher : root ≠ other → rank other < rank root)
    : Rising (Function.update parent other (some root)) rank := by
  intro node above link inner
  by_cases same : node = other
  · subst same
    rw [Function.update_self] at link
    cases link
    exact higher inner
  · rw [Function.update_of_ne same] at link
    exact rising _ _ link inner

end ParentLinks
