import AgoricSdk.Lib.MaximumFlow
import AgoricSdk.Lib.Throwing

/-!
The maximum total weight of a set of nodes that is closed under dependencies,
found as a minimum cut: positive weights are edges from the source, negative
ones edges to the sink, and a dependency is an edge that no minimum cut crosses.
-/

namespace AgoricSdk.Portfolio

open MaximumFlow

/-- An edge, with its capacity. -/
abbrev CapacityEdge := Nat × Nat × Int

structure Network where
  residual : Residual Nat
  neighbors : Nat → List Nat

def emptyNetwork : Network where
  residual _ _ := 0
  neighbors _ := []

/-- Add to a set that keeps the order of insertion. -/
def addTo (x : Nat) (xs : List Nat) : List Nat := if x ∈ xs then xs else xs ++ [x]

def addEdge (network : Network) : CapacityEdge → Network
  | (u, v, capacity) =>
    let neighbors := Function.update network.neighbors u (addTo v (network.neighbors u))
    { residual := fun x y =>
        if x = u ∧ y = v then network.residual x y + capacity else network.residual x y
      neighbors := Function.update neighbors v (addTo u (neighbors v)) }

section Model

variable {Node : Type} [DecidableEq Node]

def weightEdges (source sink : Nat) (weights : List Int) : List CapacityEdge :=
  weights.zipIdx.flatMap fun (weight, index) =>
    if 0 < weight then [(source, index, weight)]
    else if weight < 0 then [(index, sink, -weight)]
    else []

def dependencyEdge (nodeList : List Node) (capacity : Int) (index : Nat) (dependency : Node) :
    Except String CapacityEdge :=
  match nodeList.idxOf? dependency with
  | none => throw "closure dependency is not a node"
  | some dependencyIndex => pure (index, dependencyIndex, capacity)

def dependencyEdges (nodeList : List Node) (dependenciesOf : Node → List Node) (capacity : Int) :
    Except String (List CapacityEdge) :=
  let dependencies := nodeList.zipIdx.flatMap fun (node, index) =>
    (dependenciesOf node).map fun dependency => (index, dependency)
  dependencies.mapM fun (index, dependency) => dependencyEdge nodeList capacity index dependency

/-- The flow is at most the positive weight, and each push adds at least one. -/
def maxWeightClosure (nodeList : List Node) (weightOf : Node → Int)
    (dependenciesOf : Node → List Node) : Except String Int := do
  if ¬ nodeList.Nodup then throw "duplicate closure node"
  let source := nodeList.length
  let sink := source + 1
  let vertexCount := sink + 1
  let weights := nodeList.map weightOf
  let totalMagnitude := (weights.map fun weight => if weight < 0 then -weight else weight).sum
  let dependencyCapacity := totalMagnitude + 1
  let positiveWeight := (weights.filter fun weight => 0 < weight).sum
  let dependencies ← dependencyEdges nodeList dependenciesOf dependencyCapacity
  let network := (weightEdges source sink weights ++ dependencies).foldl addEdge emptyNetwork
  match maximumFlow source sink vertexCount network.neighbors (positiveWeight.toNat + 1)
    network.residual 0 with
  | none => throw "empty augmenting path"
  | some flow => return positiveWeight - flow

end Model

example : maxWeightClosure ["gain", "cost"] (fun n => if n = "gain" then 10 else -4)
    (fun n => if n = "gain" then ["cost"] else []) = .ok 6 := by
  decide +kernel

section Network

variable {edges : List CapacityEdge}

/-- The capacity between two vertices, of all the edges that join them. -/
def capacity (edges : List CapacityEdge) (u v : Nat) : Int :=
  (edges.map fun e => if u = e.1 ∧ v = e.2.1 then e.2.2 else 0).sum

theorem capacity_cons (e : CapacityEdge) (u v : Nat) : capacity (e :: edges) u v =
    (if u = e.1 ∧ v = e.2.1 then e.2.2 else 0) + capacity edges u v := rfl

theorem mem_addTo {x y : Nat} {xs : List Nat} : y ∈ addTo x xs ↔ y = x ∨ y ∈ xs := by
  unfold addTo
  split
  case isTrue h =>
    constructor
    · exact .inr
    · rintro (rfl | hy)
      · exact h
      · exact hy
  case isFalse => rw [List.mem_append, List.mem_singleton, or_comm]

theorem mem_neighbors_addEdge {network : Network} {e : CapacityEdge} {u v : Nat} :
    v ∈ (addEdge network e).neighbors u ↔
      v ∈ network.neighbors u ∨ (u = e.1 ∧ v = e.2.1) ∨ u = e.2.1 ∧ v = e.1 := by
  obtain ⟨x, y, capacity⟩ := e
  unfold addEdge
  dsimp only
  rw [Function.update_apply]
  by_cases hy : u = y
  · subst hy
    rw [if_pos rfl, mem_addTo, Function.update_apply]
    by_cases hx : u = x
    · subst hx
      rw [if_pos rfl, mem_addTo]
      tauto
    · rw [if_neg hx]
      tauto
  · rw [if_neg hy, Function.update_apply]
    by_cases hx : u = x
    · subst hx
      rw [if_pos rfl, mem_addTo]
      tauto
    · rw [if_neg hx]
      tauto

theorem mem_neighbors_foldl {network : Network} {u v : Nat} :
    v ∈ (edges.foldl addEdge network).neighbors u ↔
      v ∈ network.neighbors u ∨ ∃ e ∈ edges, (u = e.1 ∧ v = e.2.1) ∨ u = e.2.1 ∧ v = e.1 := by
  induction edges generalizing network with
  | nil => simp
  | cons e edges ih =>
    rw [List.foldl_cons, ih, mem_neighbors_addEdge, List.exists_mem_cons_iff, or_assoc]

theorem residual_foldl {network : Network} {u v : Nat} :
    (edges.foldl addEdge network).residual u v = network.residual u v + capacity edges u v := by
  induction edges generalizing network with
  | nil => exact (add_zero _).symm
  | cons e edges ih =>
    rw [List.foldl_cons, ih, capacity_cons]
    unfold addEdge
    dsimp only
    split
    · exact add_assoc _ _ _
    · rw [zero_add]

theorem cut_capacity (S A : Finset Nat) (hedges : ∀ e ∈ edges, e.2.1 ∈ S) :
    cut S (capacity edges) A =
      (edges.map fun e => if e.1 ∈ A ∧ e.2.1 ∉ A then e.2.2 else 0).sum := by
  unfold cut
  induction edges with
  | nil => simp [capacity]
  | cons e edges ih =>
    have hone : ∑ u ∈ A, ∑ v ∈ S \ A, (if u = e.1 ∧ v = e.2.1 then e.2.2 else 0) =
        if e.1 ∈ A ∧ e.2.1 ∉ A then e.2.2 else 0 := by
      have hmem := hedges e List.mem_cons_self
      by_cases hu : e.1 ∈ A <;> by_cases hv : e.2.1 ∈ A <;>
        simp [ite_and, hu, hv, hmem, Finset.sum_ite_eq', Finset.mem_sdiff]
    have hrest := ih fun e' he' => hedges e' (List.mem_cons_of_mem _ he')
    rw [List.map_cons, List.sum_cons, ← hone, ← hrest, ← Finset.sum_add_distrib]
    apply Finset.sum_congr rfl
    intro u _
    rw [← Finset.sum_add_distrib]
    rfl

theorem capacity_nonneg (h : ∀ e ∈ edges, 0 ≤ e.2.2) (u v : Nat) : 0 ≤ capacity edges u v := by
  apply List.sum_nonneg
  intro x hx
  obtain ⟨e, he, rfl⟩ := List.mem_map.mp hx
  split
  · exact h e he
  · exact Int.le_refl 0

theorem exists_edge_of_capacity_ne_zero {u v : Nat} (h : capacity edges u v ≠ 0) :
    ∃ e ∈ edges, u = e.1 ∧ v = e.2.1 := by
  by_contra hnone
  apply h
  apply List.sum_eq_zero
  intro x hx
  obtain ⟨e, he, rfl⟩ := List.mem_map.mp hx
  exact if_neg fun heq => hnone ⟨e, he, heq⟩

theorem neighbors_network {S : Finset Nat} (hS : ∀ e ∈ edges, e.1 ∈ S ∧ e.2.1 ∈ S) :
    Neighbors S (capacity edges) (edges.foldl addEdge emptyNetwork).neighbors where
  within u _ v hv := by
    rcases mem_neighbors_foldl.mp hv with hnone | ⟨e, he, ⟨-, rfl⟩ | ⟨-, rfl⟩⟩
    · cases hnone
    · exact (hS e he).2
    · exact (hS e he).1
  complete u v h := by
    obtain ⟨e, he, hu, hv⟩ := exists_edge_of_capacity_ne_zero h
    exact ⟨mem_neighbors_foldl.mpr (.inr ⟨e, he, .inl ⟨hu, hv⟩⟩),
      mem_neighbors_foldl.mpr (.inr ⟨e, he, .inr ⟨hv, hu⟩⟩)⟩

end Network

section Closure

variable {Node : Type} [DecidableEq Node] {nodeList : List Node} {weightOf : Node → Int}
  {dependenciesOf : Node → List Node}

/-- Including a node also includes all of its dependencies. -/
structure IsClosure (nodeList : List Node) (dependenciesOf : Node → List Node) (C : Finset Node) :
    Prop where
  subset : ∀ node ∈ C, node ∈ nodeList
  closed : ∀ node ∈ C, ∀ dependency ∈ dependenciesOf node, dependency ∈ C

/-- A cut and a set of nodes that are the same, up to the indices. -/
def Matches (nodeList : List Node) (A : Finset Nat) (C : Finset Node) : Prop :=
  ∀ i node, nodeList[i]? = some node → (i ∈ A ↔ node ∈ C)

theorem dependencyEdge_of_mem (K : Int) (i : Nat) {node : Node} (h : node ∈ nodeList) :
    ∃ j, dependencyEdge nodeList K i node = .ok (i, j, K) ∧ nodeList[j]? = some node := by
  obtain ⟨j, hj⟩ : ∃ j, nodeList.idxOf? node = some j := by
    apply Option.ne_none_iff_exists'.mp
    intro hnone
    exact List.idxOf?_eq_none_iff.mp hnone h
  obtain ⟨hlt, heq, -⟩ := List.idxOf?_eq_some_iff.mp hj
  refine ⟨j, ?_, ?_⟩
  · unfold dependencyEdge
    rw [hj]
    rfl
  · rw [List.getElem?_eq_getElem hlt, heq]

/-- The edges of the dependencies are those between the indices of the nodes. -/
structure IsDependencyEdges (nodeList : List Node) (dependenciesOf : Node → List Node) (K : Int)
    (edges : List CapacityEdge) : Prop where
  sound : ∀ e ∈ edges, ∃ node dependency, nodeList[e.1]? = some node ∧
    dependency ∈ dependenciesOf node ∧ nodeList[e.2.1]? = some dependency ∧ e.2.2 = K
  complete : ∀ i node, nodeList[i]? = some node → ∀ dependency ∈ dependenciesOf node,
    ∃ j, nodeList[j]? = some dependency ∧ (i, j, K) ∈ edges

theorem dependencyEdges_spec (K : Int)
    (hdependencies : ∀ node ∈ nodeList, ∀ dependency ∈ dependenciesOf node,
      dependency ∈ nodeList) :
    ∃ edges, dependencyEdges nodeList dependenciesOf K = .ok edges ∧
      IsDependencyEdges nodeList dependenciesOf K edges := by
  let dependencies := nodeList.zipIdx.flatMap fun e =>
    (dependenciesOf e.1).map fun dependency => (e.2, dependency)
  have hmem : ∀ i dependency, (i, dependency) ∈ dependencies ↔
      ∃ node, nodeList[i]? = some node ∧ dependency ∈ dependenciesOf node := by
    intro i dependency
    simp only [dependencies, List.mem_flatMap, List.mem_map, Prod.mk.injEq, Prod.exists,
      List.mem_zipIdx_iff_getElem?]
    constructor
    · rintro ⟨node, _, hnode, _, hdep, rfl, rfl⟩
      exact ⟨node, hnode, hdep⟩
    · rintro ⟨node, hnode, hdep⟩
      exact ⟨node, i, hnode, dependency, hdep, rfl, rfl⟩
  have hedge : ∀ x ∈ dependencies, ∃ j, dependencyEdge nodeList K x.1 x.2 = .ok (x.1, j, K) ∧
      nodeList[j]? = some x.2 := by
    intro x hx
    obtain ⟨node, hnode, hdep⟩ := (hmem x.1 x.2).mp hx
    exact dependencyEdge_of_mem K x.1 (hdependencies node (List.mem_of_getElem? hnode) x.2 hdep)
  obtain ⟨edges, hedges⟩ := exists_mapM_ok
    (fun x : Nat × Node => dependencyEdge nodeList K x.1 x.2) dependencies
    fun x hx => ⟨_, (hedge x hx).choose_spec.1⟩
  obtain ⟨hsound, hcomplete⟩ := mapM_ok_spec hedges
  refine ⟨edges, hedges, ?_, ?_⟩
  · intro e he
    obtain ⟨x, hx, heq⟩ := hsound e he
    obtain ⟨j, hj, hdependency⟩ := hedge x hx
    obtain ⟨node, hnode, hdep⟩ := (hmem x.1 x.2).mp hx
    cases heq.symm.trans hj
    exact ⟨node, x.2, hnode, hdep, hdependency, rfl⟩
  · intro i node hnode dependency hdep
    have hx := (hmem i dependency).mpr ⟨node, hnode, hdep⟩
    obtain ⟨j, hj, hdependency⟩ := hedge _ hx
    obtain ⟨e, he, heq⟩ := hcomplete _ hx
    cases heq.symm.trans hj
    exact ⟨j, hdependency, he⟩

theorem sum_matches (hnodup : nodeList.Nodup) {A : Finset Nat} {C : Finset Node}
    (hC : ∀ node ∈ C, node ∈ nodeList) (hAC : Matches nodeList A C) :
    ((nodeList.map weightOf).zipIdx.map fun e => if e.2 ∈ A then e.1 else 0).sum =
      ∑ node ∈ C, weightOf node := by
  have hindices : ((nodeList.map weightOf).zipIdx.map fun e => if e.2 ∈ A then e.1 else 0) =
      nodeList.map fun node => if node ∈ C then weightOf node else 0 := by
    rw [List.zipIdx_map, List.map_map]
    conv_rhs => rw [← List.zipIdx_map_fst 0 nodeList, List.map_map]
    apply List.map_congr_left
    intro e he
    have hmem := hAC e.2 e.1 (List.mem_zipIdx_iff_getElem?.mp he)
    simp only [Function.comp_apply, Prod.map_fst, Prod.map_snd, id_eq, hmem]
  have hfilter : nodeList.toFinset.filter (· ∈ C) = C := by
    ext node
    rw [Finset.mem_filter, List.mem_toFinset]
    exact ⟨fun h => h.2, fun h => ⟨hC node h, h⟩⟩
  rw [hindices, ← List.sum_toFinset _ hnodup, ← Finset.sum_filter, hfilter]

theorem cut_weightEdges {source sink : Nat} {A : Finset Nat} (hsource : source ∈ A)
    (hsink : sink ∉ A) (weights : List Int) :
    ((weightEdges source sink weights).map
        fun e => if e.1 ∈ A ∧ e.2.1 ∉ A then e.2.2 else 0).sum =
      (weights.filter fun weight => 0 < weight).sum -
        (weights.zipIdx.map fun e => if e.2 ∈ A then e.1 else 0).sum := by
  unfold weightEdges
  have hweights : (weights.filter fun weight => 0 < weight) =
      (weights.zipIdx.map Prod.fst).filter fun weight => 0 < weight := by
    rw [List.zipIdx_map_fst]
  rw [hweights]
  generalize weights.zipIdx = entries
  induction entries with
  | nil => rfl
  | cons e entries ih =>
    obtain ⟨weight, index⟩ := e
    rw [List.flatMap_cons, List.map_append, List.sum_append, ih, List.map_cons, List.map_cons,
      List.filter_cons, List.sum_cons]
    dsimp only
    by_cases hpositive : 0 < weight
    · rw [if_pos hpositive, if_pos (decide_eq_true hpositive), List.sum_cons]
      by_cases hindex : index ∈ A <;> simp [hsource, hindex]
      all_goals omega
    · have hdecide : ¬ decide (0 < weight) = true := by simpa using hpositive
      rw [if_neg hpositive, if_neg hdecide]
      by_cases hnegative : weight < 0
      · rw [if_pos hnegative]
        by_cases hindex : index ∈ A <;> simp [hsink, hindex]
        all_goals omega
      · have hzero : weight = 0 := by omega
        simp [hzero]

theorem cut_edges {S A : Finset Nat} {source sink : Nat} {C : Finset Node}
    {dependencies : List CapacityEdge} (hnodup : nodeList.Nodup)
    (hS : ∀ e ∈ weightEdges source sink (nodeList.map weightOf) ++ dependencies, e.2.1 ∈ S)
    (hparts : Parts S source sink A) (hC : ∀ node ∈ C, node ∈ nodeList)
    (hAC : Matches nodeList A C) :
    cut S (capacity (weightEdges source sink (nodeList.map weightOf) ++ dependencies)) A =
      ((nodeList.map weightOf).filter fun weight => 0 < weight).sum - ∑ node ∈ C, weightOf node +
        (dependencies.map fun e => if e.1 ∈ A ∧ e.2.1 ∉ A then e.2.2 else 0).sum := by
  rw [cut_capacity S A hS, List.map_append, List.sum_append,
    cut_weightEdges hparts.source hparts.sink, sum_matches hnodup hC hAC]

omit [DecidableEq Node] in
theorem cut_dependencies_of_closure {A : Finset Nat} {C : Finset Node} {K : Int}
    {dependencies : List CapacityEdge}
    (hedges : IsDependencyEdges nodeList dependenciesOf K dependencies)
    (hclosed : IsClosure nodeList dependenciesOf C) (hAC : Matches nodeList A C) :
    (dependencies.map fun e => if e.1 ∈ A ∧ e.2.1 ∉ A then e.2.2 else 0).sum = 0 := by
  apply List.sum_eq_zero
  intro x hx
  obtain ⟨e, he, rfl⟩ := List.mem_map.mp hx
  obtain ⟨node, dependency, hnode, hmem, hdependency, -⟩ := hedges.sound e he
  apply if_neg
  rintro ⟨hin, hout⟩
  apply hout
  exact (hAC _ _ hdependency).mpr (hclosed.closed node ((hAC _ _ hnode).mp hin) dependency hmem)

omit [DecidableEq Node] in
/-- A cut below the capacity of a dependency crosses none, so what it keeps is closed. -/
theorem closure_of_cut_dependencies {A : Finset Nat} {C : Finset Node} {K : Int}
    {dependencies : List CapacityEdge} (hK : 0 ≤ K)
    (hedges : IsDependencyEdges nodeList dependenciesOf K dependencies)
    (hC : ∀ node ∈ C, node ∈ nodeList) (hAC : Matches nodeList A C)
    (hcut : (dependencies.map fun e => if e.1 ∈ A ∧ e.2.1 ∉ A then e.2.2 else 0).sum < K) :
    IsClosure nodeList dependenciesOf C where
  subset := hC
  closed node hnode dependency hmem := by
    obtain ⟨i, hi⟩ := List.mem_iff_getElem?.mp (hC node hnode)
    obtain ⟨j, hj, he⟩ := hedges.complete i node hi dependency hmem
    apply (hAC j dependency hj).mp
    by_contra hout
    have hcross : K ∈ dependencies.map fun e => if e.1 ∈ A ∧ e.2.1 ∉ A then e.2.2 else 0 := by
      apply List.mem_map.mpr
      exact ⟨_, he, if_pos ⟨(hAC i node hi).mpr hnode, hout⟩⟩
    have hle := List.single_le_sum (l := dependencies.map
      fun e => if e.1 ∈ A ∧ e.2.1 ∉ A then e.2.2 else 0) (by
        intro x hx
        obtain ⟨e', he', rfl⟩ := List.mem_map.mp hx
        obtain ⟨-, -, -, -, -, hcap⟩ := hedges.sound e' he'
        split <;> omega) K hcross
    omega

/-- The vertices of the network: the nodes' indices, the source and the sink. -/
abbrev vertexSet (nodeList : List Node) : Finset Nat := Finset.range (nodeList.length + 2)

omit [DecidableEq Node] in
/-- Every set of nodes is the one a cut keeps. -/
theorem exists_cut_of_nodes (nodeList : List Node) (C : Finset Node) :
    ∃ A, Parts (vertexSet nodeList) nodeList.length (nodeList.length + 1) A ∧
      Matches nodeList A C := by
  classical
  let A := insert nodeList.length
    ((Finset.range nodeList.length).filter fun i => ∃ node ∈ C, nodeList[i]? = some node)
  have hmem : ∀ i, i ∈ A ↔ i = nodeList.length ∨
      i < nodeList.length ∧ ∃ node ∈ C, nodeList[i]? = some node := by
    intro i
    rw [Finset.mem_insert, Finset.mem_filter, Finset.mem_range]
  refine ⟨A, ?_, ?_⟩
  · constructor
    case subset =>
      intro i hi
      rw [Finset.mem_range]
      rcases (hmem i).mp hi with rfl | ⟨hlt, -⟩ <;> omega
    case source => exact (hmem _).mpr (.inl rfl)
    case sink =>
      intro hsink
      rcases (hmem _).mp hsink with heq | ⟨hlt, -⟩ <;> omega
  · intro i node hnode
    obtain ⟨hlt, -⟩ := List.getElem?_eq_some_iff.mp hnode
    rw [hmem]
    constructor
    · rintro (rfl | ⟨-, node', hC, hnode'⟩)
      · exact absurd hlt (Nat.lt_irrefl _)
      · cases hnode.symm.trans hnode'
        exact hC
    · intro hC
      exact .inr ⟨hlt, node, hC, hnode⟩

theorem exists_nodes_of_cut (hnodup : nodeList.Nodup) (A : Finset Nat) :
    ∃ C : Finset Node, (∀ node ∈ C, node ∈ nodeList) ∧ Matches nodeList A C := by
  classical
  let C := nodeList.toFinset.filter fun node => ∃ i ∈ A, nodeList[i]? = some node
  refine ⟨C, ?_, ?_⟩
  · intro node hnode
    exact List.mem_toFinset.mp (Finset.mem_filter.mp hnode).1
  · intro i node hnode
    rw [Finset.mem_filter, List.mem_toFinset]
    constructor
    · intro hi
      exact ⟨List.mem_of_getElem? hnode, i, hi, hnode⟩
    · rintro ⟨-, j, hj, hnode'⟩
      obtain ⟨hlt, -⟩ := List.getElem?_eq_some_iff.mp hnode
      have hij := (List.getElem?_inj hlt hnodup).mp (hnode.trans hnode'.symm)
      rwa [hij]

theorem sum_positive_le (weights : List Int) :
    0 ≤ (weights.filter fun weight => 0 < weight).sum ∧
      (weights.filter fun weight => 0 < weight).sum ≤
        (weights.map fun weight => if weight < 0 then -weight else weight).sum := by
  induction weights with
  | nil => simp
  | cons weight weights ih =>
    obtain ⟨hnonneg, hle⟩ := ih
    rw [List.filter_cons, List.map_cons, List.sum_cons]
    by_cases hpositive : 0 < weight
    · have hnot : ¬ weight < 0 := by omega
      rw [if_pos (decide_eq_true hpositive), if_neg hnot, List.sum_cons]
      omega
    · have hdecide : ¬ decide (0 < weight) = true := by simpa using hpositive
      rw [if_neg hdecide]
      split <;> omega

theorem weightEdges_within {weights : List Int} {source sink : Nat} {e : CapacityEdge}
    (he : e ∈ weightEdges source sink weights) : 0 ≤ e.2.2 ∧
      ((e.1 = source ∧ e.2.1 < weights.length) ∨ (e.1 < weights.length ∧ e.2.1 = sink)) := by
  obtain ⟨⟨weight, index⟩, hmem, hedge⟩ := List.mem_flatMap.mp he
  obtain ⟨hlt, -⟩ := List.getElem?_eq_some_iff.mp (List.mem_zipIdx_iff_getElem?.mp hmem)
  dsimp only at hedge
  split at hedge
  case isTrue hpositive =>
    obtain rfl := List.mem_singleton.mp hedge
    exact ⟨hpositive.le, .inl ⟨rfl, hlt⟩⟩
  case isFalse =>
    split at hedge
    case isTrue hnegative =>
      obtain rfl := List.mem_singleton.mp hedge
      refine ⟨?_, .inr ⟨hlt, rfl⟩⟩
      dsimp only
      omega
    case isFalse => cases hedge

omit [DecidableEq Node] in
theorem edges_within {K : Int} (hK : 0 ≤ K) {weightOf : Node → Int}
    {dependencies : List CapacityEdge}
    (hedges : IsDependencyEdges nodeList dependenciesOf K dependencies) {e : CapacityEdge}
    (he : e ∈ weightEdges nodeList.length (nodeList.length + 1) (nodeList.map weightOf) ++
      dependencies) :
    0 ≤ e.2.2 ∧ e.1 ∈ vertexSet nodeList ∧ e.2.1 ∈ vertexSet nodeList := by
  rw [Finset.mem_range, Finset.mem_range]
  rcases List.mem_append.mp he with he | he
  · obtain ⟨hnonneg, hends⟩ := weightEdges_within he
    rw [List.length_map] at hends
    exact ⟨hnonneg, by omega, by omega⟩
  · obtain ⟨node, dependency, hnode, -, hdependency, hcapacity⟩ := hedges.sound e he
    obtain ⟨hlt, -⟩ := List.getElem?_eq_some_iff.mp hnode
    obtain ⟨hlt', -⟩ := List.getElem?_eq_some_iff.mp hdependency
    exact ⟨by omega, by omega, by omega⟩

omit [DecidableEq Node] in
theorem parts_source :
    Parts (vertexSet nodeList) nodeList.length (nodeList.length + 1) {nodeList.length} where
  subset i hi := by
    rw [Finset.mem_singleton.mp hi, Finset.mem_range]
    omega
  source := Finset.mem_singleton_self _
  sink hi := absurd (Finset.mem_singleton.mp hi) (Nat.succ_ne_self _)

omit [DecidableEq Node] in
theorem matches_source : Matches nodeList {nodeList.length} ∅ := by
  intro i node hnode
  obtain ⟨hlt, -⟩ := List.getElem?_eq_some_iff.mp hnode
  constructor
  · intro hi
    exact absurd (Finset.mem_singleton.mp hi) (Nat.ne_of_lt hlt)
  · intro hi
    cases hi

theorem sum_le_positive (hnodup : nodeList.Nodup) {C : Finset Node}
    (hC : ∀ node ∈ C, node ∈ nodeList) : ∑ node ∈ C, weightOf node ≤
      ((nodeList.map weightOf).filter fun weight => 0 < weight).sum := by
  obtain ⟨A, hparts, hAC⟩ := exists_cut_of_nodes nodeList C
  have hcut := cut_weightEdges hparts.source hparts.sink (nodeList.map weightOf)
  rw [sum_matches hnodup hC hAC] at hcut
  apply Int.le_of_sub_nonneg
  rw [← hcut]
  apply List.sum_nonneg
  intro x hx
  obtain ⟨e, he, rfl⟩ := List.mem_map.mp hx
  split
  · exact (weightEdges_within he).1
  · exact Int.le_refl 0

/-- The edges are all added, and the pushes then end, at `m` below the positive weight. -/
def PushesEnd (nodeList : List Node) (weightOf : Node → Int) (dependenciesOf : Node → List Node)
    (m : Int) : Prop :=
  let source := nodeList.length
  let sink := source + 1
  let weights := nodeList.map weightOf
  let totalMagnitude := (weights.map fun weight => if weight < 0 then -weight else weight).sum
  ∃ dependencies flow,
    dependencyEdges nodeList dependenciesOf (totalMagnitude + 1) = .ok dependencies ∧
      let network := (weightEdges source sink weights ++ dependencies).foldl addEdge emptyNetwork
      Pushes source sink (sink + 1) network.neighbors network.residual 0 flow ∧
        m = (weights.filter fun weight => 0 < weight).sum - flow

theorem maxWeightClosure_ends (weightOf : Node → Int) (hnodup : nodeList.Nodup)
    (hdependencies : ∀ node ∈ nodeList, ∀ dependency ∈ dependenciesOf node,
      dependency ∈ nodeList) :
    ∃ m, maxWeightClosure nodeList weightOf dependenciesOf = .ok m ∧
      PushesEnd nodeList weightOf dependenciesOf m ∧
      (∃ C, IsClosure nodeList dependenciesOf C ∧ m = ∑ node ∈ C, weightOf node) ∧
      ∀ C, IsClosure nodeList dependenciesOf C → ∑ node ∈ C, weightOf node ≤ m := by
  let weights := nodeList.map weightOf
  let positiveWeight := (weights.filter fun weight => 0 < weight).sum
  let K := (weights.map fun weight => if weight < 0 then -weight else weight).sum + 1
  obtain ⟨hpositive, hmagnitude⟩ : 0 ≤ positiveWeight ∧ positiveWeight < K := by
    obtain ⟨hnonneg, hle⟩ := sum_positive_le weights
    exact ⟨hnonneg, Int.lt_add_one_of_le hle⟩
  have hK : 0 ≤ K := hpositive.trans hmagnitude.le
  obtain ⟨dependencies, hrun, hedges⟩ := dependencyEdges_spec K hdependencies
  let source := nodeList.length
  let sink := source + 1
  let edges := weightEdges source sink weights ++ dependencies
  let network := edges.foldl addEdge emptyNetwork
  let S := vertexSet nodeList
  let crossing (A : Finset Nat) :=
    (dependencies.map fun e => if e.1 ∈ A ∧ e.2.1 ∉ A then e.2.2 else 0).sum
  have hedge : ∀ e ∈ edges, 0 ≤ e.2.2 ∧ e.1 ∈ S ∧ e.2.1 ∈ S :=
    fun e he => edges_within hK hedges he
  have hcut : ∀ A C, Parts S source sink A → (∀ node ∈ C, node ∈ nodeList) → Matches nodeList A C →
      cut S (capacity edges) A = positiveWeight - ∑ node ∈ C, weightOf node + crossing A :=
    fun A C hparts hC hAC => cut_edges hnodup (fun e he => (hedge e he).2.2) hparts hC hAC
  have hclosure : ∀ A C, Parts S source sink A → IsClosure nodeList dependenciesOf C →
      Matches nodeList A C →
      cut S (capacity edges) A = positiveWeight - ∑ node ∈ C, weightOf node := by
    intro A C hparts hC hAC
    have hnone : crossing A = 0 := cut_dependencies_of_closure hedges hC hAC
    rw [hcut A C hparts hC.subset hAC, hnone, add_zero]
  -- The cut about the source bounds the flow, and so the number of pushes.
  have hsource : cut S (capacity edges) {source} = positiveWeight := by
    rw [hclosure _ ∅ parts_source ⟨nofun, nofun⟩ matches_source, Finset.sum_empty, sub_zero]
  have hfuel : cut S (capacity edges) {source} < 0 + ((positiveWeight.toNat + 1 : Nat) : Int) := by
    rw [hsource, zero_add, Nat.cast_succ, Int.toNat_of_nonneg hpositive]
    exact Int.lt_succ positiveWeight
  have hresidual : network.residual = capacity edges := by
    funext u v
    exact residual_foldl.trans (zero_add _)
  have hflow : Residual.IsFlow S (capacity edges) source sink 0 network.residual := by
    rw [hresidual]
    exact Residual.isFlow_zero fun u v => capacity_nonneg (fun e he => (hedge e he).1) u v
  have hmem : source ∈ S := parts_source.subset (Finset.mem_singleton_self source)
  have hneighbors := neighbors_network fun e he => (hedge e he).2
  have hne : source ≠ sink := (Nat.succ_ne_self source).symm
  obtain ⟨flow, hmax, hpushes⟩ := maximumFlow_pushes hneighbors hmem hne hflow hfuel
  obtain ⟨⟨A, hparts, heq⟩, hmin⟩ := hpushes.minimum_cut hneighbors hmem hne hflow
  rw [Finset.card_range] at hmax hpushes
  refine ⟨positiveWeight - flow, ?_, ⟨dependencies, flow, hrun, hpushes, rfl⟩, ?_, ?_⟩
  · unfold maxWeightClosure
    rw [if_neg (not_not_intro hnodup)]
    simp only [hrun, Except.bind, bind, pure, Except.pure, hmax, edges, source, sink, weights,
      positiveWeight, K, network]
  · -- A smallest cut crosses no dependency: each would outweigh the cut about the source.
    obtain ⟨C, hC, hAC⟩ := exists_nodes_of_cut hnodup A
    have hle : flow ≤ positiveWeight := hsource ▸ hmin {source} parts_source
    have hvalue := heq.trans (hcut A C hparts hC hAC)
    have hnonneg : ∑ node ∈ C, weightOf node ≤ positiveWeight := sum_le_positive hnodup hC
    have hclosed : IsClosure nodeList dependenciesOf C := by
      apply closure_of_cut_dependencies hK hedges hC hAC
      have hcrossing : crossing A = flow - positiveWeight + ∑ node ∈ C, weightOf node := by
        rw [hvalue]
        ring
      exact hcrossing.trans_lt (by linarith)
    refine ⟨C, hclosed, ?_⟩
    rw [heq, hclosure A C hparts hclosed hAC]
    ring
  · intro C hC
    obtain ⟨B, hB, hBC⟩ := exists_cut_of_nodes nodeList C
    have hle := hmin B hB
    rw [hclosure B C hB hC hBC] at hle
    linarith

theorem maxWeightClosure_spec (weightOf : Node → Int) (hnodup : nodeList.Nodup)
    (hdependencies : ∀ node ∈ nodeList, ∀ dependency ∈ dependenciesOf node,
      dependency ∈ nodeList) :
    ∃ m, maxWeightClosure nodeList weightOf dependenciesOf = .ok m ∧
      (∃ C, IsClosure nodeList dependenciesOf C ∧ m = ∑ node ∈ C, weightOf node) ∧
      ∀ C, IsClosure nodeList dependenciesOf C → ∑ node ∈ C, weightOf node ≤ m := by
  obtain ⟨m, hrun, -, hmax⟩ := maxWeightClosure_ends weightOf hnodup hdependencies
  exact ⟨m, hrun, hmax⟩

/-- Whatever the dependencies, cycles among them, the pushes end, and the result is the greatest
weight of a closure. The empty closure keeps it from being negative. -/
theorem maxWeightClosure_isGreatest (weightOf : Node → Int) (hnodup : nodeList.Nodup)
    (hdependencies : ∀ node ∈ nodeList, ∀ dependency ∈ dependenciesOf node,
      dependency ∈ nodeList) :
    ∃ m, maxWeightClosure nodeList weightOf dependenciesOf = .ok m ∧
      PushesEnd nodeList weightOf dependenciesOf m ∧
      IsGreatest {w | ∃ C, IsClosure nodeList dependenciesOf C ∧ ∑ node ∈ C, weightOf node = w} m ∧
      0 ≤ m := by
  obtain ⟨m, hrun, hends, ⟨C, hC, hm⟩, hmax⟩ := maxWeightClosure_ends weightOf hnodup hdependencies
  have hempty : IsClosure nodeList dependenciesOf ∅ := ⟨nofun, nofun⟩
  refine ⟨m, hrun, hends, ⟨⟨C, hC, hm.symm⟩, ?_⟩, hmax ∅ hempty⟩
  rintro _ ⟨D, hD, rfl⟩
  exact hmax D hD

/-- A cycle, a self dependency and one that is listed twice. -/
theorem maxWeightClosure_isGreatest_cycle :
    let weightOf : Nat → Int := fun n => if n = 0 then 7 else if n = 1 then -3 else 2
    let dependenciesOf : Nat → List Nat := fun n =>
      if n = 0 then [1, 1] else if n = 1 then [0, 1] else [0]
    ∃ m, maxWeightClosure [0, 1, 2] weightOf dependenciesOf = .ok m ∧
      PushesEnd [0, 1, 2] weightOf dependenciesOf m ∧
      IsGreatest {w | ∃ C, IsClosure [0, 1, 2] dependenciesOf C ∧ ∑ node ∈ C, weightOf node = w} m ∧
      0 ≤ m :=
  maxWeightClosure_isGreatest _ (by decide) (by decide)

end Closure

end AgoricSdk.Portfolio
