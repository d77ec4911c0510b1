import Mathlib.Algebra.BigOperators.Ring.Finset
import Mathlib.Algebra.Order.BigOperators.Group.Finset
import Mathlib.Tactic

/-!
Flows in a network, told by the capacities they leave. Flow is pushed along one
edge after the other, and what it adds up to at each vertex is the same however
the edges overlap. A flow is at most the capacity of any cut, and equals that of
a cut it leaves no residual capacity across.
-/

variable {V : Type}

/-- The capacities left from each vertex to each other one. -/
abbrev Residual (V : Type) := V → V → Int

namespace Residual

/-- The edges of a path that is listed from its end back to its start. -/
def pathEdges : List V → List (V × V)
  | v :: u :: path => (u, v) :: pathEdges (u :: path)
  | _ => []

theorem mem_of_pathEdges {path : List V} {e : V × V} (h : e ∈ pathEdges path) :
    e.1 ∈ path ∧ e.2 ∈ path := by
  fun_induction pathEdges path with
  | case1 v u path ih =>
    rcases List.mem_cons.mp h with rfl | h
    · simp
    · obtain ⟨hu, hv⟩ := ih h
      exact ⟨List.mem_cons_of_mem _ hu, List.mem_cons_of_mem _ hv⟩
  | case2 => cases h

/-- The least capacity left on a path. -/
def bottleneck (r : Residual V) (path : List V) : Option Int :=
  ((pathEdges path).map fun e => r e.1 e.2).min?

theorem bottleneck_le {r : Residual V} {path : List V} {δ : Int}
    (h : bottleneck r path = some δ) {e : V × V} (he : e ∈ pathEdges path) : δ ≤ r e.1 e.2 := by
  apply (List.min?_eq_some_iff.mp h).2
  exact List.mem_map_of_mem he

theorem bottleneck_mem {r : Residual V} {path : List V} {δ : Int}
    (h : bottleneck r path = some δ) : ∃ e ∈ pathEdges path, r e.1 e.2 = δ := by
  obtain ⟨e, he, heq⟩ := List.mem_map.mp (List.min?_mem h)
  exact ⟨e, he, heq⟩

variable [DecidableEq V]

/-- Move `δ` of capacity from an edge to its reverse. -/
def push (δ : Int) (u v : V) (r : Residual V) : Residual V := fun x y =>
  r x y - (if x = u ∧ y = v then δ else 0) + (if x = v ∧ y = u then δ else 0)

/-- Push along a path that is listed from its end back to its start. -/
def augment (δ : Int) : List V → Residual V → Residual V
  | v :: u :: path, r => augment δ (u :: path) (push δ u v r)
  | _, r => r

theorem push_add_reverse (δ : Int) (u v : V) (r : Residual V) (x y : V) :
    push δ u v r x y + push δ u v r y x = r x y + r y x := by
  unfold push
  by_cases hxy : x = u ∧ y = v <;> by_cases hyx : x = v ∧ y = u <;>
    simp [hxy, hyx, and_comm] <;> omega

theorem le_push {δ : Int} (hδ : 0 ≤ δ) {u v x y : V} (r : Residual V) (h : (x, y) ≠ (u, v)) :
    r x y ≤ push δ u v r x y := by
  unfold push
  rw [if_neg fun heq => h (by rw [heq.1, heq.2])]
  split <;> omega

theorem push_nonneg {δ : Int} (hδ : 0 ≤ δ) {u v : V} {r : Residual V} (hr : ∀ x y, 0 ≤ r x y)
    (hle : δ ≤ r u v) (x y : V) : 0 ≤ push δ u v r x y := by
  by_cases h : (x, y) = (u, v)
  · cases h
    unfold push
    rw [if_pos ⟨rfl, rfl⟩]
    split <;> omega
  · exact (hr x y).trans (le_push hδ r h)

theorem augment_add_reverse (δ : Int) (path : List V) (r : Residual V) (x y : V) :
    augment δ path r x y + augment δ path r y x = r x y + r y x := by
  fun_induction augment δ path r with
  | case1 v u path r ih => rw [ih, push_add_reverse]
  | case2 => rfl

theorem augment_nonneg {δ : Int} (hδ : 0 ≤ δ) {path : List V} (hnodup : path.Nodup)
    {r : Residual V} (hr : ∀ x y, 0 ≤ r x y) (hle : ∀ e ∈ pathEdges path, δ ≤ r e.1 e.2)
    (x y : V) : 0 ≤ augment δ path r x y := by
  fun_induction augment δ path r with
  | case1 v u path r ih =>
    obtain ⟨hv, hrest⟩ := List.nodup_cons.mp hnodup
    apply ih hrest
    · exact push_nonneg hδ hr (hle (u, v) List.mem_cons_self)
    · intro e he
      have hne : (e.1, e.2) ≠ (u, v) := by
        intro heq
        apply hv
        rw [← (Prod.mk.inj heq).2]
        exact (mem_of_pathEdges he).2
      exact (hle e (List.mem_cons_of_mem _ he)).trans (le_push hδ r hne)
  | case2 => exact hr x y

section Balance

variable (S : Finset V) (cap : V → V → Int)

/-- What leaves a vertex in excess of what enters it. -/
def outflow (r : Residual V) (u : V) : Int := ∑ v ∈ S, (cap u v - r u v)

theorem sum_ite_pair {S : Finset V} {δ : Int} {u v : V} (hv : v ∈ S) (x : V) :
    ∑ y ∈ S, (if x = u ∧ y = v then δ else 0) = if x = u then δ else 0 := by
  by_cases hx : x = u
  · simp [hx, hv]
  · simp [hx]

theorem outflow_push {S : Finset V} {cap : V → V → Int} {δ : Int} {u v : V} (hu : u ∈ S)
    (hv : v ∈ S) (r : Residual V) (x : V) :
    outflow S cap (push δ u v r) x =
      outflow S cap r x + (if x = u then δ else 0) - (if x = v then δ else 0) := by
  have hsplit : ∀ y, cap x y - push δ u v r x y = cap x y - r x y +
      (if x = u ∧ y = v then δ else 0) - (if x = v ∧ y = u then δ else 0) := by
    intro y
    unfold push
    omega
  unfold outflow
  rw [Finset.sum_congr rfl fun y _ => hsplit y, Finset.sum_sub_distrib, Finset.sum_add_distrib,
    sum_ite_pair hv, sum_ite_pair hu]

theorem outflow_augment {S : Finset V} {cap : V → V → Int} {δ : Int} {v : V} {path : List V}
    (hmem : ∀ u ∈ v :: path, u ∈ S) (r : Residual V) (x : V) :
    outflow S cap (augment δ (v :: path) r) x = outflow S cap r x +
      (if x = (v :: path).getLast (List.cons_ne_nil _ _) then δ else 0) -
        (if x = v then δ else 0) := by
  induction path generalizing v r with
  | nil =>
    rw [augment, List.getLast_singleton]
    · omega
    · simp
  | cons u path ih =>
    have hv : v ∈ S := hmem v List.mem_cons_self
    have hu : u ∈ S := hmem u (List.mem_cons_of_mem _ List.mem_cons_self)
    rw [augment, ih (fun w hw => hmem w (List.mem_cons_of_mem _ hw)), outflow_push hu hv,
      List.getLast_cons (List.cons_ne_nil u path)]
    omega

/-- The residual capacities are those of a flow of the given value. -/
structure IsFlow (s t : V) (value : Int) (r : Residual V) : Prop where
  nonneg : ∀ u v, 0 ≤ r u v
  skew : ∀ u v, r u v + r v u = cap u v + cap v u
  balance : ∀ u ∈ S, outflow S cap r u =
    (if u = s then value else 0) - (if u = t then value else 0)

variable {S cap} {s t : V} {value : Int} {r : Residual V}

theorem isFlow_zero (hcap : ∀ u v, 0 ≤ cap u v) : IsFlow S cap s t 0 cap where
  nonneg := hcap
  skew _ _ := rfl
  balance u _ := by simp [outflow]

theorem IsFlow.augment (h : IsFlow S cap s t value r) {δ : Int} (hδ : 0 ≤ δ) {path : List V}
    (hnodup : (t :: path).Nodup) (hmem : ∀ u ∈ t :: path, u ∈ S)
    (hlast : (t :: path).getLast (List.cons_ne_nil _ _) = s)
    (hle : ∀ e ∈ pathEdges (t :: path), δ ≤ r e.1 e.2) :
    IsFlow S cap s t (value + δ) (augment δ (t :: path) r) where
  nonneg := augment_nonneg hδ hnodup h.nonneg hle
  skew u v := (augment_add_reverse δ _ r u v).trans (h.skew u v)
  balance u hu := by
    rw [outflow_augment hmem, hlast, h.balance u hu]
    split <;> split <;> omega

theorem IsFlow.cut (h : IsFlow S cap s t value r) {A : Finset V} (hA : A ⊆ S) (hs : s ∈ A)
    (ht : t ∉ A) : ∑ u ∈ A, ∑ v ∈ S \ A, (cap u v - r u v) = value := by
  have hinner : ∑ u ∈ A, ∑ v ∈ A, (cap u v - r u v) = 0 := by
    have hswap : ∑ u ∈ A, ∑ v ∈ A, (cap u v - r u v) = -∑ u ∈ A, ∑ v ∈ A, (cap u v - r u v) := by
      conv_lhs => rw [Finset.sum_comm]
      rw [← Finset.sum_neg_distrib]
      apply Finset.sum_congr rfl
      intro u _
      rw [← Finset.sum_neg_distrib]
      apply Finset.sum_congr rfl
      intro v _
      have hskew := h.skew u v
      omega
    omega
  have hall : ∑ u ∈ A, outflow S cap r u = value := by
    rw [Finset.sum_congr rfl fun u hu => h.balance u (hA hu), Finset.sum_sub_distrib]
    simp [hs, ht]
  rw [← hall, ← add_zero (∑ u ∈ A, ∑ v ∈ S \ A, _), ← hinner, ← Finset.sum_add_distrib]
  apply Finset.sum_congr rfl
  intro u _
  exact Finset.sum_sdiff hA

theorem IsFlow.value_le_cut (h : IsFlow S cap s t value r) {A : Finset V} (hA : A ⊆ S)
    (hs : s ∈ A) (ht : t ∉ A) : value ≤ ∑ u ∈ A, ∑ v ∈ S \ A, cap u v := by
  rw [← h.cut hA hs ht]
  apply Finset.sum_le_sum
  intro u _
  apply Finset.sum_le_sum
  intro v _
  have hr := h.nonneg u v
  omega

theorem IsFlow.value_eq_cut (h : IsFlow S cap s t value r) {A : Finset V} (hA : A ⊆ S)
    (hs : s ∈ A) (ht : t ∉ A) (hfull : ∀ u ∈ A, ∀ v ∈ S \ A, r u v = 0) :
    value = ∑ u ∈ A, ∑ v ∈ S \ A, cap u v := by
  rw [← h.cut hA hs ht]
  apply Finset.sum_congr rfl
  intro u hu
  apply Finset.sum_congr rfl
  intro v hv
  rw [hfull u hu v hv, sub_zero]

end Balance

end Residual
