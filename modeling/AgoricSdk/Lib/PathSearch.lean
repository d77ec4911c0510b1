import AgoricSdk.Lib.ResidualFlow

/-!
Breadth-first search. The vertices reached are kept with the vertex each was
reached from, the latest first; following these back gives a path to the start
that visits no vertex twice. A search that is given as many steps as there are
vertices reaches all it can.
-/

namespace PathSearch

variable {V : Type}

/-- The vertices reached, each with the one it was reached from. -/
abbrev Parents (V : Type) := List (V × V)

def vertices (parents : Parents V) : List V := parents.map Prod.fst

section Path

/-- Every vertex but the start was reached by an edge from one reached before. -/
inductive Reached (s : V) (edge : V → V → Prop) : Parents V → Prop where
  | start : Reached s edge [(s, s)]
  | step {u v : V} {parents : Parents V} : Reached s edge parents → u ∈ vertices parents →
      v ∉ vertices parents → edge u v → Reached s edge ((v, u) :: parents)

/-- A path back to the start, without repetition and along edges. -/
structure IsPath (s : V) (edge : V → V → Prop) (parents : Parents V) (path : List V) : Prop where
  nodup : path.Nodup
  reached : ∀ u ∈ path, u ∈ vertices parents
  last : path.getLast? = some s
  edges : ∀ e ∈ Residual.pathEdges path, edge e.1 e.2

variable {s : V} {edge : V → V → Prop} {parents : Parents V}

theorem Reached.start_mem (h : Reached s edge parents) : s ∈ vertices parents := by
  induction h with
  | start => exact List.mem_cons_self
  | step _ _ _ _ ih => exact List.mem_cons_of_mem _ ih

theorem Reached.nodup (h : Reached s edge parents) : (vertices parents).Nodup := by
  induction h with
  | start => exact List.nodup_singleton s
  | step _ _ hnew _ ih => exact List.nodup_cons.mpr ⟨hnew, ih⟩

end Path

variable [DecidableEq V]

/-- Reach the vertices that are new, from `u`. -/
def visit (u : V) : List V → List V × Parents V → List V × Parents V
  | [], s => s
  | v :: vs, (queue, parents) =>
    if (parents.lookup v).isSome then visit u vs (queue, parents)
    else visit u vs (queue ++ [v], (v, u) :: parents)

def search (succ : V → List V) : Nat → List V × Parents V → List V × Parents V
  | 0, s => s
  | _ + 1, ([], parents) => ([], parents)
  | fuel + 1, (u :: queue, parents) => search succ fuel (visit u (succ u) (queue, parents))

/-- The path from a vertex back to the start `s`. -/
def walkBack (s : V) (parents : Parents V) : Nat → V → List V
  | 0, v => [v]
  | fuel + 1, v =>
    if v = s then [v] else
      match parents.lookup v with
      | none => [v]
      | some u => v :: walkBack s parents fuel u

variable {s : V} {edge : V → V → Prop} {parents : Parents V}

theorem lookup_isSome_iff {v : V} : (parents.lookup v).isSome = true ↔ v ∈ vertices parents := by
  simp only [List.lookup_isSome_iff, vertices, List.mem_map, beq_iff_eq]
  constructor
  · rintro ⟨e, he, rfl⟩
    exact ⟨e, he, rfl⟩
  · rintro ⟨e, he, rfl⟩
    exact ⟨e, he, rfl⟩

theorem Reached.parent_mem (h : Reached s edge parents) {u v : V}
    (hv : parents.lookup v = some u) : u ∈ vertices parents := by
  induction h with
  | start =>
    have hu : u = s := by
      rw [List.lookup_cons] at hv
      split at hv
      · exact (Option.some.inj hv).symm
      · cases hv
    rw [hu]
    exact List.mem_cons_self
  | step _ hmem _ _ ih =>
    rw [List.lookup_cons] at hv
    split at hv
    · cases hv
      exact List.mem_cons_of_mem _ hmem
    · exact List.mem_cons_of_mem _ (ih hv)

theorem walkBack_cons (h : Reached s edge parents) {u v : V} (hnew : v ∉ vertices parents)
    (fuel : Nat) {x : V} (hx : x ∈ vertices parents) :
    walkBack s ((v, u) :: parents) fuel x = walkBack s parents fuel x := by
  induction fuel generalizing x with
  | zero => rfl
  | succ fuel ih =>
    have hxv : (x == v) = false := by
      apply beq_false_of_ne
      rintro rfl
      exact hnew hx
    unfold walkBack
    rw [List.lookup_cons, hxv]
    dsimp only
    split
    · rfl
    · cases hw : parents.lookup x with
      | none => rfl
      | some w =>
        dsimp only
        rw [ih (h.parent_mem hw)]

theorem walkBack_isPath (h : Reached s edge parents) {fuel : Nat} (hfuel : parents.length ≤ fuel + 1)
    {v : V} (hv : v ∈ vertices parents) :
    ∃ path, walkBack s parents fuel v = v :: path ∧ IsPath s edge parents (v :: path) := by
  induction h generalizing fuel v with
  | start =>
    obtain rfl := List.mem_singleton.mp hv
    refine ⟨[], ?_, ?_⟩
    · cases fuel with
      | zero => rfl
      | succ fuel => exact if_pos rfl
    · constructor
      case nodup => exact List.nodup_singleton v
      case reached =>
        intro u hu
        exact hu
      case last => rfl
      case edges =>
        intro e he
        cases he
  | @step u x parents hreached hu hnew hedge ih =>
    by_cases hvx : v = x
    · subst hvx
      obtain ⟨fuel, rfl⟩ : ∃ n, fuel = n + 1 := by
        apply Nat.exists_eq_succ_of_ne_zero
        have hsome : 0 < parents.length := by
          cases hreached <;> exact Nat.succ_pos _
        have hlong : parents.length + 1 ≤ fuel + 1 := hfuel
        omega
      have hvs : v ≠ s := by
        rintro rfl
        exact hnew hreached.start_mem
      have hshort : parents.length ≤ fuel + 1 := Nat.le_of_succ_le_succ hfuel
      obtain ⟨path, hpath, hok⟩ := ih hshort hu
      refine ⟨u :: path, ?_, ?_⟩
      · unfold walkBack
        rw [if_neg hvs, List.lookup_cons, beq_self_eq_true]
        dsimp only
        rw [walkBack_cons hreached hnew fuel hu, hpath]
      · constructor
        case nodup =>
          refine List.nodup_cons.mpr ⟨?_, hok.nodup⟩
          intro hmem
          exact hnew (hok.reached v hmem)
        case reached =>
          intro w hw
          rcases List.mem_cons.mp hw with rfl | hw
          · exact List.mem_cons_self
          · exact List.mem_cons_of_mem _ (hok.reached w hw)
        case last =>
          rw [List.getLast?_cons_cons]
          exact hok.last
        case edges =>
          intro e he
          rcases List.mem_cons.mp he with rfl | he
          · exact hedge
          · exact hok.edges e he
    · have hv' : v ∈ vertices parents := (List.mem_cons.mp hv).resolve_left hvx
      obtain ⟨path, hpath, hok⟩ := ih (Nat.le_of_succ_le hfuel) hv'
      refine ⟨path, ?_, ?_⟩
      · rw [walkBack_cons hreached hnew fuel hv', hpath]
      · exact { hok with reached := fun w hw => List.mem_cons_of_mem _ (hok.reached w hw) }

section Search

variable {u : V}

/-- What a visit does: it reaches the vertices `vs`, and queues those that are new. -/
structure Visits (s : V) (edge : V → V → Prop) (vs : List V) (before after : List V × Parents V) :
    Prop where
  reached : Reached s edge after.2
  vertices_iff : ∀ v, v ∈ vertices after.2 ↔ v ∈ vertices before.2 ∨ v ∈ vs
  covered : ∀ v ∈ vertices after.2, v ∈ vertices before.2 ∨ v ∈ after.1
  kept : ∀ v ∈ before.1, v ∈ after.1
  queued : ∀ v ∈ after.1, v ∈ before.1 ∨ v ∈ vertices after.2
  length : after.1.length + before.2.length = before.1.length + after.2.length

theorem visit_visits (h : Reached s edge parents) (hu : u ∈ vertices parents) {vs : List V}
    (hedge : ∀ v ∈ vs, edge u v) (queue : List V) :
    Visits s edge vs (queue, parents) (visit u vs (queue, parents)) := by
  induction vs generalizing queue parents with
  | nil => exact ⟨h, by simp [visit], fun v hv => .inl hv, fun v hv => hv, fun v hv => .inl hv, rfl⟩
  | cons v vs ih =>
    have hrest : ∀ w ∈ vs, edge u w := fun w hw => hedge w (List.mem_cons_of_mem _ hw)
    unfold visit
    by_cases hv : v ∈ vertices parents
    · rw [if_pos (lookup_isSome_iff.mpr hv)]
      have hvisits := ih h hu hrest queue
      exact { hvisits with
        vertices_iff := by
          intro w
          rw [hvisits.vertices_iff, List.mem_cons]
          constructor
          · rintro (hw | hw)
            · exact .inl hw
            · exact .inr (.inr hw)
          · rintro (hw | rfl | hw)
            · exact .inl hw
            · exact .inl hv
            · exact .inr hw }
    · rw [if_neg (lookup_isSome_iff.not.mpr hv)]
      have hnext : Reached s edge ((v, u) :: parents) :=
        .step h hu hv (hedge v List.mem_cons_self)
      have hvisits := ih hnext (List.mem_cons_of_mem _ hu) hrest (queue ++ [v])
      have hfirst : ∀ w, w ∈ vertices ((v, u) :: parents) ↔ w = v ∨ w ∈ vertices parents :=
        fun w => List.mem_cons
      constructor
      case reached => exact hvisits.reached
      case vertices_iff =>
        intro w
        rw [hvisits.vertices_iff, hfirst, List.mem_cons, or_comm (a := w = v), or_assoc]
      case covered =>
        intro w hw
        rcases hvisits.covered w hw with hold | hin
        · rcases (hfirst w).mp hold with rfl | hold
          · exact .inr (hvisits.kept w (List.mem_append_right _ (List.mem_singleton_self w)))
          · exact .inl hold
        · exact .inr hin
      case kept =>
        intro w hw
        exact hvisits.kept w (List.mem_append_left _ hw)
      case queued =>
        intro w hw
        rcases hvisits.queued w hw with hold | hin
        · rcases List.mem_append.mp hold with hold | hlast
          · exact .inl hold
          · obtain rfl := List.mem_singleton.mp hlast
            exact .inr ((hvisits.vertices_iff w).mpr (.inl ((hfirst w).mpr (.inl rfl))))
        · exact .inr hin
      case length =>
        have hlength := hvisits.length
        rw [List.length_append, List.length_singleton, List.length_cons] at hlength
        dsimp only
        omega

variable {S : Finset V} {succ : V → List V}

theorem Reached.length_le (h : Reached s edge parents) (hwithin : ∀ v ∈ vertices parents, v ∈ S) :
    parents.length ≤ S.card := by
  have hsub : (vertices parents).toFinset ⊆ S := fun v hv => hwithin v (List.mem_toFinset.mp hv)
  have hle := Finset.card_le_card hsub
  rwa [List.toFinset_card_of_nodup h.nodup, vertices, List.length_map] at hle

/-- A search under way within `S`, with enough fuel to end. -/
structure Searching (s : V) (edge : V → V → Prop) (S : Finset V) (succ : V → List V) (fuel : Nat)
    (state : List V × Parents V) : Prop where
  reached : Reached s edge state.2
  within : ∀ v ∈ vertices state.2, v ∈ S
  queued : ∀ v ∈ state.1, v ∈ vertices state.2
  closed : ∀ u ∈ vertices state.2, u ∉ state.1 → ∀ v ∈ succ u, v ∈ vertices state.2
  budget : S.card + state.1.length ≤ fuel + state.2.length

omit [DecidableEq V] in
theorem Searching.start (hs : s ∈ S) : Searching s edge S succ S.card ([s], [(s, s)]) where
  reached := .start
  within v hv := by
    obtain rfl := List.mem_singleton.mp hv
    exact hs
  queued v hv := hv
  closed u hu hnot := absurd hu hnot
  budget := Nat.le_refl _

theorem Searching.round {fuel : Nat} {queue : List V}
    (h : Searching s edge S succ (fuel + 1) (u :: queue, parents))
    (hsucc : ∀ u ∈ S, ∀ v ∈ succ u, v ∈ S ∧ edge u v) :
    Searching s edge S succ fuel (visit u (succ u) (queue, parents)) := by
  have hu : u ∈ vertices parents := h.queued u List.mem_cons_self
  have hsucc' := hsucc u (h.within u hu)
  have hvisits := visit_visits h.reached hu (fun v hv => (hsucc' v hv).2) queue
  constructor
  case reached => exact hvisits.reached
  case within =>
    intro v hv
    rcases (hvisits.vertices_iff v).mp hv with hold | hnew
    · exact h.within v hold
    · exact (hsucc' v hnew).1
  case queued =>
    intro v hv
    rcases hvisits.queued v hv with hold | hin
    · exact (hvisits.vertices_iff v).mpr (.inl (h.queued v (List.mem_cons_of_mem _ hold)))
    · exact hin
  case closed =>
    intro w hw hnot v hv
    rw [hvisits.vertices_iff]
    rcases hvisits.covered w hw with hold | hin
    · by_cases hwu : w = u
      · rw [hwu] at hv
        exact .inr hv
      · have hqueue : w ∉ u :: queue := by
          rw [List.mem_cons]
          rintro (heq | hmem)
          · exact hwu heq
          · exact hnot (hvisits.kept w hmem)
        exact .inl (h.closed w hold hqueue v hv)
    · exact absurd hin hnot
  case budget =>
    have hlength := hvisits.length
    have hbudget := h.budget
    rw [List.length_cons] at hbudget
    dsimp only at hlength hbudget
    omega

theorem Searching.queue_eq_nil {state : List V × Parents V}
    (h : Searching s edge S succ 0 state) : state.1 = [] := by
  have hcard := h.reached.length_le h.within
  apply List.eq_nil_of_length_eq_zero
  have hbudget := h.budget
  omega

theorem search_queue {fuel : Nat} {state : List V × Parents V}
    (h : Searching s edge S succ fuel state)
    (hsucc : ∀ u ∈ S, ∀ v ∈ succ u, v ∈ S ∧ edge u v) : (search succ fuel state).1 = [] := by
  fun_induction search succ fuel state with
  | case1 state => exact h.queue_eq_nil
  | case2 fuel parents => rfl
  | case3 fuel parents u queue ih => exact ih (h.round hsucc)

theorem search_spec {fuel : Nat} {state : List V × Parents V}
    (h : Searching s edge S succ fuel state)
    (hsucc : ∀ u ∈ S, ∀ v ∈ succ u, v ∈ S ∧ edge u v) :
    Reached s edge (search succ fuel state).2 ∧
      (∀ v ∈ vertices (search succ fuel state).2, v ∈ S) ∧
      ∀ u ∈ vertices (search succ fuel state).2, ∀ v ∈ succ u,
        v ∈ vertices (search succ fuel state).2 := by
  fun_induction search succ fuel state with
  | case1 state =>
    refine ⟨h.reached, h.within, fun u hu => h.closed u hu ?_⟩
    rw [h.queue_eq_nil]
    exact List.not_mem_nil
  | case2 fuel parents => exact ⟨h.reached, h.within, fun u hu => h.closed u hu List.not_mem_nil⟩
  | case3 fuel parents u queue ih => exact ih (h.round hsucc)

end Search

end PathSearch
