import Mathlib.Combinatorics.SimpleGraph.Connectivity.Connected
import Mathlib.Data.Set.Card
import Mathlib.Order.Lattice.Nat
import Flair.Dedup.UnionFind

/-! Counts of near-duplicate clusters are counts of connected components. Follows
`countDedupClusters` of `resources/dedup-cluster.ts`.
-/

namespace Flair.Dedup

open ParentLinks UnionFind

structure DedupEdge where
  a : String
  b : String
deriving DecidableEq

structure DedupClusterStats where
  clusterCount : Nat
  largestClusterSize : Nat
  totalMemoriesInClusters : Nat
deriving DecidableEq

/-- Join the ends of every edge; an edge from a memory to itself is left out. -/
def unionEdges (edges : List DedupEdge) : Option UnionFind :=
  edges.foldlM (fun uf edge => if edge.a = edge.b then some uf else uf.union edge.a edge.b)
    UnionFind.empty

def tallyRoot (now : UnionFind × InsertionMap String Nat) (id : String)
    : Option (UnionFind × InsertionMap String Nat) := do
  let (root, uf) ← now.1.find id
  return (uf, InsertionMap.bump now.2 root 1)

def sizeByRoot (uf : UnionFind) : Option (InsertionMap String Nat) :=
  (uf.nodes.foldlM tallyRoot (uf, [])).map Prod.snd

def DedupClusterStats.add (stats : DedupClusterStats) (size : Nat) : DedupClusterStats :=
  if size < 2 then stats
  else
    { clusterCount := stats.clusterCount + 1
      totalMemoriesInClusters := stats.totalMemoriesInClusters + size
      largestClusterSize :=
        if stats.largestClusterSize < size then size else stats.largestClusterSize }

def statsOf (sizes : List Nat) : DedupClusterStats := sizes.foldl .add ⟨0, 0, 0⟩

def clusterSizes (edges : List DedupEdge) : Option (List Nat) := do
  let sizes ← sizeByRoot (← unionEdges edges)
  return sizes.map Prod.snd

def countDedupClusters (edges : List DedupEdge) : Option DedupClusterStats :=
  (clusterSizes edges).map statsOf

/-- The graph that the edges span: direction, repetition and loops aside. -/
def similarityGraph (edges : List DedupEdge) : SimpleGraph String :=
  SimpleGraph.fromRel fun x y => ⟨x, y⟩ ∈ edges

-- The graph of one more edge

theorem adj_similarityGraph {edges : List DedupEdge} {x y : String}
    : (similarityGraph edges).Adj x y
        ↔ x ≠ y ∧ (⟨x, y⟩ ∈ edges ∨ ⟨y, x⟩ ∈ edges) :=
  SimpleGraph.fromRel_adj _ _ _

theorem similarityGraph_le (edges more : List DedupEdge)
    : similarityGraph edges ≤ similarityGraph (edges ++ more) := by
  intro x y adjacent
  rw [adj_similarityGraph] at adjacent ⊢
  exact ⟨adjacent.1, adjacent.2.imp (List.mem_append_left _) (List.mem_append_left _)⟩

theorem reachable_append (edges : List DedupEdge) (edge : DedupEdge) {x y : String}
    : (similarityGraph (edges ++ [edge])).Reachable x y
        ↔ (similarityGraph edges).Reachable x y
          ∨ ((similarityGraph edges).Reachable x edge.a
              ∧ (similarityGraph edges).Reachable edge.b y)
          ∨ ((similarityGraph edges).Reachable x edge.b
              ∧ (similarityGraph edges).Reachable edge.a y) := by
  constructor
  · intro joined
    rw [SimpleGraph.reachable_iff_reflTransGen] at joined
    induction joined with
    | refl => exact .inl (.refl _)
    | @tail y z _ step ih =>
      have cases : (similarityGraph edges).Adj y z ∨ (y = edge.a ∧ z = edge.b)
          ∨ (y = edge.b ∧ z = edge.a) := by
        rw [adj_similarityGraph] at step ⊢
        obtain ⟨apart, listed⟩ := step
        simp only [List.mem_append, List.mem_singleton] at listed
        rcases listed with (old | new) | (old | new)
        · exact .inl ⟨apart, .inl old⟩
        · exact .inr (.inl (by simp [← new]))
        · exact .inl ⟨apart, .inr old⟩
        · exact .inr (.inr (by simp [← new]))
      rcases cases with old | ⟨rfl, rfl⟩ | ⟨rfl, rfl⟩
      · have on := old.reachable
        exact ih.imp (·.trans on) (Or.imp (fun way => ⟨way.1, way.2.trans on⟩)
          fun way => ⟨way.1, way.2.trans on⟩)
      · rcases ih with way | way | way
        · exact .inr (.inl ⟨way, .refl _⟩)
        · exact .inr (.inl ⟨way.1, .refl _⟩)
        · exact .inl way.1
      · rcases ih with way | way | way
        · exact .inr (.inr ⟨way, .refl _⟩)
        · exact .inl way.1
        · exact .inr (.inr ⟨way.1, .refl _⟩)
  · have keep {x y : String} (way : (similarityGraph edges).Reachable x y)
        : (similarityGraph (edges ++ [edge])).Reachable x y :=
      way.mono (similarityGraph_le _ _)
    have across : (similarityGraph (edges ++ [edge])).Reachable edge.a edge.b := by
      by_cases loop : edge.a = edge.b
      · rw [loop]
      · exact (adj_similarityGraph.mpr ⟨loop, .inl (by simp)⟩).reachable
    rintro (way | ⟨first, second⟩ | ⟨first, second⟩)
    · exact keep way
    · exact (keep first).trans (across.trans (keep second))
    · exact (keep first).trans (across.symm.trans (keep second))

def Named (edges : List DedupEdge) (x : String) : Prop :=
  ∃ edge ∈ edges, edge.a ≠ edge.b ∧ (x = edge.a ∨ x = edge.b)

theorem named_iff_adj {edges : List DedupEdge} {x : String}
    : Named edges x ↔ ∃ y, (similarityGraph edges).Adj x y := by
  simp only [adj_similarityGraph]
  constructor
  · rintro ⟨edge, listed, apart, rfl | rfl⟩
    · exact ⟨edge.b, apart, .inl listed⟩
    · exact ⟨edge.a, apart.symm, .inr listed⟩
  · rintro ⟨y, apart, listed | listed⟩
    · exact ⟨_, listed, apart, .inl rfl⟩
    · exact ⟨_, listed, apart.symm, .inr rfl⟩

theorem named_of_reachable {edges : List DedupEdge} {x y : String}
    (joined : (similarityGraph edges).Reachable x y) (apart : x ≠ y)
    : Named edges x := by
  rw [SimpleGraph.reachable_iff_reflTransGen] at joined
  rcases joined.cases_head with rfl | ⟨next, step, -⟩
  · exact absurd rfl apart
  · exact named_iff_adj.mpr ⟨next, step⟩

-- The sets after every edge

/-- The sets are the connected classes of the memories that the edges name. -/
structure Classes (edges : List DedupEdge) (uf : UnionFind) : Prop where
  forest : Forest uf
  nodes : ∀ x, x ∈ uf.nodes ↔ Named edges x
  together : ∀ x y, uf.Together x y ↔ x ∈ uf.nodes ∧ (similarityGraph edges).Reachable x y

variable {edges done : List DedupEdge} {edge : DedupEdge} {uf : UnionFind}

theorem classes_empty : Classes [] UnionFind.empty where
  forest := forest_empty
  nodes x := by simp [UnionFind.empty, UnionFind.nodes, Named]
  together x y := by
    constructor
    · exact fun both => absurd both.node (by simp [UnionFind.empty, UnionFind.nodes])
    · exact fun both => absurd both.1 (by simp [UnionFind.empty, UnionFind.nodes])

theorem Classes.loop (h : Classes done uf) (loop : edge.a = edge.b)
    : Classes (done ++ [edge]) uf := by
  have graph : similarityGraph (done ++ [edge]) = similarityGraph done := by
    ext x y
    rw [adj_similarityGraph, adj_similarityGraph]
    refine and_congr_right fun apart => ?_
    have first : (⟨x, y⟩ : DedupEdge) ≠ edge := fun same => apart (by rw [← same] at loop; exact loop)
    have second : (⟨y, x⟩ : DedupEdge) ≠ edge :=
      fun same => apart (by rw [← same] at loop; exact loop.symm)
    simp [first, second]
  refine ⟨h.forest, fun x => ?_, by rw [graph]; exact h.together⟩
  rw [h.nodes, named_iff_adj, named_iff_adj, graph]

theorem Classes.join {after : UnionFind} (h : Classes done uf) (apart : edge.a ≠ edge.b)
    (joined : Joined ((uf.ensure edge.a).ensure edge.b) after edge.a edge.b)
    : Classes (done ++ [edge]) after := by
  have nodes (x : String) : x ∈ after.nodes ↔ Named (done ++ [edge]) x := by
    rw [joined.nodes, mem_nodes_ensure, mem_nodes_ensure, h.nodes]
    simp only [Named, List.mem_append, List.mem_singleton, or_and_right, exists_or,
      exists_eq_left, apart, ne_eq, not_false_eq_true, true_and, or_assoc]
  have base (x y : String)
      : ((uf.ensure edge.a).ensure edge.b).Together x y
        ↔ x ∈ after.nodes ∧ (similarityGraph done).Reachable x y := by
    have fresh {z : String} (outside : z ∉ uf.nodes) {y : String}
        (way : (similarityGraph done).Reachable z y) : z = y := by
      by_contra other
      exact outside ((h.nodes z).mpr (named_of_reachable way other))
    rw [together_ensure h.forest.ensure, together_ensure h.forest, h.together, joined.nodes,
      mem_nodes_ensure, mem_nodes_ensure, mem_nodes_ensure]
    constructor
    · rintro ((⟨inside, way⟩ | ⟨-, rfl, rfl⟩) | ⟨-, rfl, rfl⟩)
      · exact ⟨.inl (.inl inside), way⟩
      · exact ⟨.inl (.inr rfl), .refl _⟩
      · exact ⟨.inr rfl, .refl _⟩
    · rintro ⟨inside, way⟩
      by_cases old : x ∈ uf.nodes
      · exact .inl (.inl ⟨old, way⟩)
      obtain rfl := fresh old way
      rcases inside with (inside | rfl) | rfl
      · exact absurd inside old
      · exact .inl (.inr ⟨old, rfl, rfl⟩)
      refine .inr ⟨?_, rfl, rfl⟩
      rintro (inside | same)
      · exact old inside
      · exact apart same.symm
  refine ⟨joined.forest, nodes, fun x y => ?_⟩
  have known (z : String) (isEnd : z = edge.a ∨ z = edge.b) : z ∈ after.nodes := by
    rw [nodes]
    exact ⟨edge, by simp, apart, isEnd⟩
  rw [joined.together, base, base, base, base, base, reachable_append]
  have atA := known edge.a (.inl rfl)
  have atB := known edge.b (.inr rfl)
  tauto

theorem unionEdges_classes (edges : List DedupEdge)
    : ∃ uf, unionEdges edges = some uf ∧ Classes edges uf := by
  induction edges using List.reverseRecOn with
  | nil => exact ⟨_, rfl, classes_empty⟩
  | append_singleton done edge ih =>
    obtain ⟨uf, ran, classes⟩ := ih
    unfold unionEdges at ran ⊢
    rw [List.foldlM_append, ran]
    by_cases loop : edge.a = edge.b
    · exact ⟨uf, by simp [loop], classes.loop loop⟩
    · obtain ⟨after, united, joined⟩ := union_spec classes.forest edge.a edge.b
      exact ⟨after, by simp [loop, united], classes.join loop joined⟩

-- The sizes of the classes

theorem sizeByRoot_spec (h : Forest uf) {roots : String → String}
    (own : ∀ x ∈ uf.nodes, uf.LeadsTo x (roots x))
    : sizeByRoot uf
      = some (uf.nodes.foldl (fun sizes id => InsertionMap.bump sizes (roots id) 1) []) := by
  have tallied (ids : List String) (known : ∀ x ∈ ids, x ∈ uf.nodes) (now : UnionFind)
      (same : SameRoots uf now) (sizes : InsertionMap String Nat)
      : ∃ after, ids.foldlM tallyRoot (now, sizes)
          = some (after, ids.foldl (fun sizes id => InsertionMap.bump sizes (roots id) 1) sizes) := by
    induction ids generalizing now sizes with
    | nil => exact ⟨now, rfl⟩
    | cons id rest ih =>
      have inside := known id List.mem_cons_self
      obtain ⟨root, after, found, kept, leads⟩ := find_spec same.forest id
      have node : id ∈ now.nodes := same.nodes ▸ inside
      rw [ensure_known (mem_nodes.mp node)] at kept
      have way := ((same.trans kept).leads id root).mp leads
      obtain rfl := way.unique (own id inside)
      obtain ⟨last, ran⟩ := ih (fun x member => known x (List.mem_cons_of_mem _ member)) after
        (same.trans kept) (InsertionMap.bump sizes (roots id) 1)
      refine ⟨last, ?_⟩
      rw [List.foldlM_cons, List.foldl_cons, ← ran, tallyRoot, found]
      rfl
  obtain ⟨after, ran⟩ := tallied uf.nodes (fun _ inside => inside) uf (.refl h) []
  rw [sizeByRoot, ran]
  rfl

theorem statsOf_clusters (sizes : List Nat) (clusters : ∀ size ∈ sizes, 2 ≤ size)
    : statsOf sizes = ⟨sizes.length, (sizes : Multiset ℕ).sup, sizes.sum⟩ := by
  have counted (start : DedupClusterStats)
      : sizes.foldl .add start
        = ⟨start.clusterCount + sizes.length,
            start.largestClusterSize ⊔ (sizes : Multiset ℕ).sup,
            start.totalMemoriesInClusters + sizes.sum⟩ := by
    induction sizes generalizing start with
    | nil => simp
    | cons size rest ih =>
      have large := clusters size List.mem_cons_self
      have larger : (if start.largestClusterSize < size then size
          else start.largestClusterSize) = start.largestClusterSize ⊔ size := by
        split
        · rw [sup_eq_right.mpr (by omega)]
        · rw [sup_eq_left.mpr (by omega)]
      rw [List.foldl_cons, ih fun other member => clusters other (List.mem_cons_of_mem _ member),
        DedupClusterStats.add, if_neg (by omega)]
      simp only [larger, ← Multiset.cons_coe, Multiset.sup_cons, List.length_cons,
        List.sum_cons, sup_assoc]
      congr 1 <;> omega
  have counts := counted ⟨0, 0, 0⟩
  simpa [statsOf] using counts

theorem Classes.supp {roots : String → String} (h : Classes edges uf)
    (own : ∀ x ∈ uf.nodes, uf.LeadsTo x (roots x)) {x : String} (node : x ∈ uf.nodes)
    : ((similarityGraph edges).connectedComponentMk (roots x)).supp
      = {y | y ∈ uf.nodes ∧ roots y = roots x} := by
  have joined (y : String) (inside : y ∈ uf.nodes)
      : (similarityGraph edges).Reachable y (roots y) :=
    ((h.together _ _).mp ⟨_, own y inside, .of_top (own y inside).top⟩).2
  ext y
  rw [SimpleGraph.ConnectedComponent.mem_supp_iff, SimpleGraph.ConnectedComponent.eq]
  constructor
  · intro way
    have both := (h.together x y).mpr ⟨node, (joined x node).trans way.symm⟩
    have inside := both.symm.node
    obtain ⟨root, first, second⟩ := both
    exact ⟨inside, ((own y inside).unique second).trans ((own x node).unique first).symm⟩
  · rintro ⟨inside, same⟩
    exact same ▸ joined y inside

theorem clusterSizes_spec (edges : List DedupEdge)
    : ∃ (clusters : Finset (similarityGraph edges).ConnectedComponent) (sizes : List Nat),
        (∀ cluster, cluster ∈ clusters ↔ cluster.supp.Nontrivial)
        ∧ clusterSizes edges = some sizes
        ∧ (sizes : Multiset ℕ) = clusters.val.map fun cluster => cluster.supp.ncard := by
  obtain ⟨uf, united, h⟩ := unionEdges_classes edges
  have exists_roots : ∀ x, ∃ root, x ∈ uf.nodes → uf.LeadsTo x root := by
    intro x
    by_cases node : x ∈ uf.nodes
    · obtain ⟨root, leads⟩ := h.forest.exists_root (mem_nodes.mp node)
      exact ⟨root, fun _ => leads⟩
    · exact ⟨x, fun inside => absurd inside node⟩
  choose roots own using exists_roots
  have fresh : InsertionMap.Distinct ([] : InsertionMap String Nat) := List.nodup_nil
  have distinct := fresh.foldl_bump uf.nodes roots fun _ => 1
  generalize tallied
    : uf.nodes.foldl (fun sizes id => InsertionMap.bump sizes (roots id) 1) [] = sizes at distinct
  have among (root : String)
      : root ∈ sizes.map Prod.fst ↔ ∃ x ∈ uf.nodes, root = roots x := by
    rw [← tallied, InsertionMap.mem_keys_foldl_bump]
    simp
  have size (x : String) (node : x ∈ uf.nodes) {held : Nat} (entry : (roots x, held) ∈ sizes)
      : held = ((similarityGraph edges).connectedComponentMk (roots x)).supp.ncard := by
    have total := @InsertionMap.total_fold_bump _ _ _ _ [] (fun place => decide (place = roots x))
      _ uf.nodes roots fun _ => 1
    rw [tallied, ← distinct.getD_get, distinct.get_of_mem entry] at total
    have members : {y | y ∈ uf.nodes ∧ roots y = roots x}
        = ↑((uf.nodes.filter fun y => roots y = roots x).toFinset) := by
      ext y
      simp
    have nodup : (uf.nodes.filter fun y => roots y = roots x).Nodup :=
      h.forest.distinct.filter _
    have counted (ids : List String)
        : (ids.map fun y => if decide (roots y = roots x) then 1 else 0).sum
          = (ids.filter fun y => roots y = roots x).length := by
      induction ids with
      | nil => rfl
      | cons y rest ih =>
        rw [List.map_cons, List.sum_cons, ih, List.filter_cons]
        split <;> simp [Nat.add_comm]
    rw [h.supp own node, members, Set.ncard_coe_finset, List.toFinset_card_of_nodup nodup,
      ← counted]
    simpa using total
  have apart (x y : String) (atX : x ∈ uf.nodes) (atY : y ∈ uf.nodes)
      (same : (similarityGraph edges).connectedComponentMk (roots x)
        = (similarityGraph edges).connectedComponentMk (roots y))
      : roots x = roots y := by
    have inside : y ∈ ((similarityGraph edges).connectedComponentMk (roots x)).supp := by
      rw [same, h.supp own atY]
      exact ⟨atY, rfl⟩
    rw [h.supp own atX] at inside
    exact inside.2.symm
  have clusterOf : (sizes.map fun entry =>
      (similarityGraph edges).connectedComponentMk entry.1).Nodup := by
    refine List.Nodup.map_on ?_ distinct.of_map
    intro first inFirst second inSecond same
    obtain ⟨x, atX, rootX⟩ := (among first.1).mp (List.mem_map_of_mem inFirst)
    obtain ⟨y, atY, rootY⟩ := (among second.1).mp (List.mem_map_of_mem inSecond)
    have keys : first.1 = second.1 := by
      rw [rootX, rootY] at same ⊢
      exact apart x y atX atY same
    exact List.inj_on_of_nodup_map distinct inFirst inSecond keys
  refine ⟨⟨_, Multiset.coe_nodup.mpr clusterOf⟩, sizes.map Prod.snd, fun cluster => ?_, ?_, ?_⟩
  · rw [Finset.mem_mk, Multiset.mem_coe, List.mem_map]
    constructor
    · rintro ⟨entry, inside, rfl⟩
      obtain ⟨x, node, root⟩ := (among entry.1).mp (List.mem_map_of_mem inside)
      obtain ⟨y, adjacent⟩ := named_iff_adj.mp ((h.nodes x).mp node)
      have joined := ((h.together _ _).mp ⟨_, own x node, .of_top (own x node).top⟩).2
      rw [root]
      refine ⟨x, ?_, y, ?_, adjacent.ne⟩
      · rw [SimpleGraph.ConnectedComponent.mem_supp_iff]
        exact SimpleGraph.ConnectedComponent.sound joined
      · rw [SimpleGraph.ConnectedComponent.mem_supp_iff]
        exact SimpleGraph.ConnectedComponent.sound (adjacent.symm.reachable.trans joined)
    · rintro ⟨x, atX, y, atY, other⟩
      rw [SimpleGraph.ConnectedComponent.mem_supp_iff] at atX atY
      have joined := SimpleGraph.ConnectedComponent.exact (atX.trans atY.symm)
      have node := (h.nodes x).mpr (named_of_reachable joined other)
      have way := ((h.together _ _).mp ⟨_, own x node, .of_top (own x node).top⟩).2
      obtain ⟨entry, inside, root⟩ := List.mem_map.mp ((among _).mpr ⟨x, node, rfl⟩)
      refine ⟨entry, inside, ?_⟩
      rw [root, ← atX]
      exact SimpleGraph.ConnectedComponent.sound way.symm
  · rw [clusterSizes, united, Option.bind_eq_bind, Option.bind_some,
      sizeByRoot_spec h.forest own, tallied]
    rfl
  · rw [Multiset.map_coe, List.map_map, Multiset.coe_eq_coe]
    refine List.Perm.of_eq (List.map_congr_left fun entry inside => ?_)
    obtain ⟨x, node, root⟩ := (among entry.1).mp (List.mem_map_of_mem inside)
    have held := @size x node entry.2 (root ▸ inside)
    rw [← root] at held
    exact held

def ComponentCounts (graph : SimpleGraph String) (sizes : Multiset ℕ) (stats : DedupClusterStats)
    : Prop :=
  ∃ clusters : Finset graph.ConnectedComponent,
    (∀ cluster, cluster ∈ clusters ↔ cluster.supp.Nontrivial)
    ∧ sizes = clusters.val.map (fun cluster => cluster.supp.ncard)
    ∧ stats.clusterCount = clusters.card
    ∧ stats.largestClusterSize = clusters.sup (fun cluster => cluster.supp.ncard)
    ∧ stats.totalMemoriesInClusters = ∑ cluster ∈ clusters, cluster.supp.ncard

theorem ComponentCounts.unique {graph : SimpleGraph String} {sizes sizes' : Multiset ℕ}
    {stats stats' : DedupClusterStats} (h : ComponentCounts graph sizes stats)
    (h' : ComponentCounts graph sizes' stats')
    : stats = stats' := by
  obtain ⟨clusters, all, -, count, largest, total⟩ := h
  obtain ⟨clusters', all', -, count', largest', total'⟩ := h'
  obtain rfl : clusters = clusters' := Finset.ext fun cluster => by rw [all, all']
  obtain ⟨first, second, third⟩ := stats
  obtain ⟨first', second', third'⟩ := stats'
  simp only at count largest total count' largest' total'
  rw [count, largest, total, count', largest', total']

theorem finite_supp {cluster : (similarityGraph edges).ConnectedComponent}
    (several : cluster.supp.Nontrivial)
    : cluster.supp.Finite := by
  obtain ⟨uf, -, h⟩ := unionEdges_classes edges
  refine uf.nodes.toFinset.finite_toSet.subset fun x atX => ?_
  obtain ⟨y, atY, other⟩ := several.exists_ne x
  rw [SimpleGraph.ConnectedComponent.mem_supp_iff] at atX atY
  have joined := SimpleGraph.ConnectedComponent.exact (atX.trans atY.symm)
  simpa using (h.nodes x).mpr (named_of_reachable joined other.symm)

theorem countDedupClusters_spec (edges : List DedupEdge)
    : ∃ sizes stats, clusterSizes edges = some sizes ∧ countDedupClusters edges = some stats
        ∧ ComponentCounts (similarityGraph edges) sizes stats := by
  obtain ⟨clusters, sizes, all, sized, counts⟩ := clusterSizes_spec edges
  have several : ∀ size ∈ sizes, 2 ≤ size := by
    intro size member
    rw [← Multiset.mem_coe, counts, Multiset.mem_map] at member
    obtain ⟨cluster, inside, rfl⟩ := member
    have nontrivial := (all cluster).mp inside
    have := (finite_supp nontrivial).to_subtype
    exact Set.one_lt_ncard_iff_nontrivial.mpr nontrivial
  refine ⟨sizes, statsOf sizes, sized, by rw [countDedupClusters, sized]; rfl, clusters, all,
    counts, ?_⟩
  rw [statsOf_clusters sizes several]
  refine ⟨?_, congrArg Multiset.sup counts, ?_⟩
  · simpa using congrArg Multiset.card counts
  · simpa using congrArg Multiset.sum counts

/-- The counts are those of the connected components with two or more members; they depend on
the graph only, whatever the order, direction and repetition of its edges; and in every map
that the edges build, the walk from a node to its root passes each node at most once.
-/
theorem clusters_are_components (edges : List DedupEdge)
    : (∃ sizes stats, clusterSizes edges = some sizes ∧ countDedupClusters edges = some stats
        ∧ ComponentCounts (similarityGraph edges) sizes stats)
      ∧ (∀ others, (∀ x y, x ≠ y → ((⟨x, y⟩ ∈ edges ∨ ⟨y, x⟩ ∈ edges)
            ↔ (⟨x, y⟩ ∈ others ∨ ⟨y, x⟩ ∈ others)))
          → countDedupClusters others = countDedupClusters edges)
      ∧ ∀ done more, edges = done ++ more → ∃ uf, unionEdges done = some uf
          ∧ ∀ x ∈ uf.nodes, ∃ passed root, Climb uf.parent.get x passed root
            ∧ passed.Nodup ∧ passed ⊆ uf.nodes := by
  refine ⟨countDedupClusters_spec edges, fun others same => ?_, fun done more _ => ?_⟩
  · have graph : similarityGraph others = similarityGraph edges := by
      ext x y
      rw [adj_similarityGraph, adj_similarityGraph]
      exact and_congr_right fun apart => (same x y apart).symm
    obtain ⟨sizes, stats, -, counted, counts⟩ := countDedupClusters_spec edges
    obtain ⟨sizes', stats', -, counted', counts'⟩ := countDedupClusters_spec others
    rw [graph] at counts'
    rw [counted, counted', counts.unique counts']
  · obtain ⟨uf, united, h⟩ := unionEdges_classes done
    refine ⟨uf, united, fun x node => ?_⟩
    obtain ⟨root, passed, climb⟩ := h.forest.exists_root (mem_nodes.mp node)
    exact ⟨passed, root, climb, climb.nodup h.forest.rising,
      fun y member => mem_nodes.mpr (climb.known member)⟩

end Flair.Dedup
