import AgoricSdk.Lib.PathSearch

/-!
The maximum flow of a network, by pushing along the paths that breadth-first
search finds until there is none. Each push adds at least one to the value, and
the value is at most the capacity of the cut about the source, so this ends. What
the last search reached is then a cut that the flow fills.
-/

namespace MaximumFlow

open PathSearch Residual

variable {V : Type} [DecidableEq V]

/-- The vertices that an edge with capacity left leads to. -/
def openNeighbors (neighbors : V → List V) (r : Residual V) (u : V) : List V :=
  (neighbors u).filter fun v => r u v ≠ 0

/-- `none` when a path has no edge. The fuel bounds the number of pushes, and
`size` the length of a search. -/
def maximumFlow (s t : V) (size : Nat) (neighbors : V → List V) :
    Nat → Residual V → Int → Option Int
  | 0, _, flow => some flow
  | fuel + 1, r, flow =>
    let parents := (search (openNeighbors neighbors r) size ([s], [(s, s)])).2
    if (parents.lookup t).isNone then some flow
    else
      let path := walkBack s parents size t
      match bottleneck r path with
      | none => none
      | some increment =>
        maximumFlow s t size neighbors fuel (augment increment path r) (flow + increment)

/-- The capacity of a cut. -/
def cut (S : Finset V) (cap : V → V → Int) (A : Finset V) : Int := ∑ u ∈ A, ∑ v ∈ S \ A, cap u v

/-- A set of vertices that parts the sink `t` from the source `s`. -/
structure Parts (S : Finset V) (s t : V) (A : Finset V) : Prop where
  subset : A ⊆ S
  source : s ∈ A
  sink : t ∉ A

variable {S : Finset V} {cap : V → V → Int} {s t : V} {neighbors : V → List V} {value : Int}
  {r : Residual V}

/-- The neighbors are the other ends of the edges, in both directions. -/
structure Neighbors (S : Finset V) (cap : V → V → Int) (neighbors : V → List V) : Prop where
  within : ∀ u ∈ S, ∀ v ∈ neighbors u, v ∈ S
  complete : ∀ u v, cap u v ≠ 0 → v ∈ neighbors u ∧ u ∈ neighbors v

theorem mem_openNeighbors (h : IsFlow S cap s t value r) (hn : Neighbors S cap neighbors) {u v : V}
    (hr : r u v ≠ 0) : v ∈ openNeighbors neighbors r u := by
  apply List.mem_filter.mpr
  refine ⟨?_, by simpa using hr⟩
  by_cases huv : cap u v = 0
  · have hvu : cap v u ≠ 0 := by
      intro hvu
      have hskew := h.skew u v
      have hu := h.nonneg u v
      have hv := h.nonneg v u
      omega
    exact (hn.complete v u hvu).2
  · exact (hn.complete u v huv).1

omit [DecidableEq V] in
theorem openNeighbors_spec (hn : Neighbors S cap neighbors) :
    ∀ u ∈ S, ∀ v ∈ openNeighbors neighbors r u, v ∈ S ∧ r u v ≠ 0 := by
  intro u hu v hv
  obtain ⟨hmem, hr⟩ := List.mem_filter.mp hv
  exact ⟨hn.within u hu v hmem, by simpa using hr⟩

theorem full_cut (h : IsFlow S cap s t value r) (hn : Neighbors S cap neighbors) {parents : Parents V}
    (hreached : Reached s (fun u v => r u v ≠ 0) parents) (hwithin : ∀ v ∈ vertices parents, v ∈ S)
    (hclosed : ∀ u ∈ vertices parents, ∀ v ∈ openNeighbors neighbors r u, v ∈ vertices parents)
    (hsink : t ∉ vertices parents) :
    Parts S s t (vertices parents).toFinset ∧ value = cut S cap (vertices parents).toFinset := by
  have hparts : Parts S s t (vertices parents).toFinset := by
    constructor
    case subset => exact fun v hv => hwithin v (List.mem_toFinset.mp hv)
    case source => exact List.mem_toFinset.mpr hreached.start_mem
    case sink => exact fun ht => hsink (List.mem_toFinset.mp ht)
  refine ⟨hparts, h.value_eq_cut hparts.subset hparts.source hparts.sink ?_⟩
  intro u hu v hv
  by_contra hr
  have hmem := hclosed u (List.mem_toFinset.mp hu) v (mem_openNeighbors h hn hr)
  exact (Finset.mem_sdiff.mp hv).2 (List.mem_toFinset.mpr hmem)

theorem push_path (h : IsFlow S cap s t value r) (hst : s ≠ t) {parents : Parents V}
    (hreached : Reached s (fun u v => r u v ≠ 0) parents) (hwithin : ∀ v ∈ vertices parents, v ∈ S)
    {size : Nat} (hsize : S.card ≤ size) (hsink : t ∈ vertices parents) :
    ∃ increment, bottleneck r (walkBack s parents size t) = some increment ∧ 0 < increment ∧
      IsFlow S cap s t (value + increment) (augment increment (walkBack s parents size t) r) := by
  have hlength : parents.length ≤ size + 1 :=
    (hreached.length_le hwithin).trans (Nat.le_succ_of_le hsize)
  obtain ⟨path, hpath, hok⟩ := walkBack_isPath hreached hlength hsink
  rw [hpath]
  have hsome : ∃ increment, bottleneck r (t :: path) = some increment := by
    cases path with
    | nil =>
      have hlast : some t = some s := hok.last
      exact absurd (Option.some.inj hlast).symm hst
    | cons u path => exact ⟨_, rfl⟩
  obtain ⟨increment, hincrement⟩ := hsome
  have hpositive : 0 < increment := by
    obtain ⟨e, he, heq⟩ := bottleneck_mem hincrement
    have hne := hok.edges e he
    have hnonneg := h.nonneg e.1 e.2
    omega
  refine ⟨increment, hincrement, hpositive, ?_⟩
  apply h.augment hpositive.le hok.nodup
  · exact fun u hu => hwithin u (hok.reached u hu)
  · have hlast := hok.last
    rw [List.getLast?_eq_some_getLast (List.cons_ne_nil t path)] at hlast
    exact Option.some.inj hlast
  · exact fun e he => bottleneck_le hincrement he

/-- A run of the loop to its end: each search empties its queue, and each walk back ends at
the source. -/
inductive Pushes (s t : V) (size : Nat) (neighbors : V → List V) :
    Residual V → Int → Int → Prop where
  | done {r : Residual V} {flow : Int} {parents : Parents V} :
      search (openNeighbors neighbors r) size ([s], [(s, s)]) = ([], parents) →
      parents.lookup t = none → Pushes s t size neighbors r flow flow
  | push {r : Residual V} {flow increment m : Int} {parents : Parents V} :
      search (openNeighbors neighbors r) size ([s], [(s, s)]) = ([], parents) →
      t ∈ vertices parents → (walkBack s parents size t).getLast? = some s →
      bottleneck r (walkBack s parents size t) = some increment →
      Pushes s t size neighbors (augment increment (walkBack s parents size t) r)
        (flow + increment) m →
      Pushes s t size neighbors r flow m

theorem search_reached (hn : Neighbors S cap neighbors) (hs : s ∈ S) : ∃ parents,
    search (openNeighbors neighbors r) S.card ([s], [(s, s)]) = ([], parents) ∧
      Reached s (fun u v => r u v ≠ 0) parents ∧ (∀ v ∈ vertices parents, v ∈ S) ∧
      ∀ u ∈ vertices parents, ∀ v ∈ openNeighbors neighbors r u, v ∈ vertices parents := by
  have hstart : Searching s (fun u v => r u v ≠ 0) S (openNeighbors neighbors r) S.card
    ([s], [(s, s)]) := .start hs
  have hqueue := search_queue hstart (openNeighbors_spec hn)
  exact ⟨_, Prod.ext hqueue rfl, search_spec hstart (openNeighbors_spec hn)⟩

theorem maximumFlow_pushes (hn : Neighbors S cap neighbors) (hs : s ∈ S) (hst : s ≠ t) {fuel : Nat}
    (h : IsFlow S cap s t value r) (hfuel : cut S cap {s} < value + fuel) :
    ∃ m, maximumFlow s t S.card neighbors fuel r value = some m ∧
      Pushes s t S.card neighbors r value m := by
  induction fuel generalizing r value with
  | zero =>
    have hsource : value ≤ cut S cap {s} := by
      apply h.value_le_cut
      · exact Finset.singleton_subset_iff.mpr hs
      · exact Finset.mem_singleton_self s
      · exact fun ht => hst (Finset.mem_singleton.mp ht).symm
    omega
  | succ fuel ih =>
    obtain ⟨parents, hsearch, hreached, hwithin, -⟩ := search_reached (r := r) hn hs
    unfold maximumFlow
    rw [hsearch]
    dsimp only
    split
    case isTrue hnone => exact ⟨value, rfl, .done hsearch (Option.isNone_iff_eq_none.mp hnone)⟩
    case isFalse hsome =>
      have hsink : t ∈ vertices parents := by
        rw [← lookup_isSome_iff, Option.isSome_iff_ne_none]
        exact fun hnone => hsome (Option.isNone_iff_eq_none.mpr hnone)
      have hlength := (hreached.length_le hwithin).trans (Nat.le_succ _)
      obtain ⟨path, hpath, hok⟩ := walkBack_isPath hreached hlength hsink
      obtain ⟨increment, hincrement, hpositive, hflow⟩ :=
        push_path h hst hreached hwithin (Nat.le_refl _) hsink
      obtain ⟨m, hm, hpushes⟩ := ih hflow (by omega)
      rw [hincrement]
      refine ⟨m, hm, .push hsearch hsink ?_ hincrement hpushes⟩
      rw [hpath]
      exact hok.last

theorem Pushes.minimum_cut (hn : Neighbors S cap neighbors) (hs : s ∈ S) (hst : s ≠ t) {m : Int}
    (hpushes : Pushes s t S.card neighbors r value m) (h : IsFlow S cap s t value r) :
    (∃ A, Parts S s t A ∧ m = cut S cap A) ∧ ∀ A, Parts S s t A → m ≤ cut S cap A := by
  induction hpushes with
  | @done r flow parents hsearch hnone =>
    obtain ⟨_, heq, hreached, hwithin, hclosed⟩ := search_reached (r := r) hn hs
    cases hsearch.symm.trans heq
    have hsink : t ∉ vertices parents := by
      rw [← lookup_isSome_iff, hnone]
      exact Bool.false_ne_true
    obtain ⟨hparts, hvalue⟩ := full_cut h hn hreached hwithin hclosed hsink
    exact ⟨⟨_, hparts, hvalue⟩, fun A hA => h.value_le_cut hA.subset hA.source hA.sink⟩
  | @push r flow increment m parents hsearch hsink hlast hincrement hpushes ih =>
    obtain ⟨_, heq, hreached, hwithin, -⟩ := search_reached (r := r) hn hs
    cases hsearch.symm.trans heq
    obtain ⟨_, hincrement', -, hflow⟩ := push_path h hst hreached hwithin (Nat.le_refl _) hsink
    cases hincrement.symm.trans hincrement'
    exact ih hflow

end MaximumFlow
