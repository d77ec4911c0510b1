import AgoricSdk.Lib.DependencyOrder
import AgoricSdk.Lib.Record
import AgoricSdk.Lib.Throwing
import AgoricSdk.Lib.Transition

/-!
Tasks in a partial order: the normalized dependencies, which are refused when they
have a cycle, the schedule that says which tasks are ready, and the job that runs
them. What a job has completed at any time could be completed in some order that
respects the dependencies, and every set that could be is one that some run of the
job has completed.
-/

namespace AgoricSdk.Portfolio

/-- Entries that list for a task the tasks it depends on. -/
abbrev JobOrder := List (Int × List Int)

/-- A map from a task to the set of those it depends on; tasks without any are left out. -/
abbrev Dependencies := Record Nat (List Nat)

structure Job where
  taskQty : Nat
  order : JobOrder

/-- Each task follows its predecessor. -/
def fullOrder (length : Nat) : JobOrder :=
  (List.range (length - 1)).map fun (lo : Nat) => ((lo : Int) + 1, [(lo : Int)])

def checkNode (qty : Nat) (node : Int) : Except String Nat :=
  if node < 0 ∨ (qty : Int) ≤ node then throw s!"Invalid node index: {node}" else pure node.toNat

def addDependencies (qty : Nat) (order : Dependencies) (entry : Int × List Int) :
    Except String Dependencies := do
  let checkedIx ← checkNode qty entry.1
  if entry.2.length > 0 then
    let deps ← entry.2.mapM (checkNode qty)
    return order.set checkedIx deps.eraseDups
  else return order

/-- Visit nodes one after the other until one of them finds a cycle. -/
def anyCycle (visit : List Nat → Nat → Bool × List Nat) : List Nat → List Nat → Bool × List Nat
  | visited, [] => (false, visited)
  | visited, dep :: deps =>
    match visit visited dep with
    | (true, visited) => (true, visited)
    | (false, visited) => anyCycle visit visited deps

/-- The nodes on the stack differ, so that a search never goes deeper than there are nodes. -/
def hasCycle (order : Dependencies) : Nat → List Nat → List Nat → Nat → Bool × List Nat
  | 0, _, visited, _ => (true, visited)
  | fuel + 1, recursionStack, visited, node =>
    if node ∈ recursionStack then (true, visited)
    else if node ∈ visited then (false, visited)
    else anyCycle (hasCycle order fuel (node :: recursionStack)) (node :: visited)
      ((order.get node).getD [])

def checkCycles (qty : Nat) (order : Dependencies) : List Nat → List Nat → Except String Unit
  | _, [] => pure ()
  | visited, node :: nodes =>
    if node ∈ visited then checkCycles qty order visited nodes
    else
      match hasCycle order (qty + 1) [] visited node with
      | (true, _) => throw s!"Dependency cycle detected involving node {node}"
      | (false, visited) => checkCycles qty order visited nodes

def makeDependencies (qty : Nat) (orderArray : JobOrder) : Except String Dependencies := do
  let order ← orderArray.foldlM (addDependencies qty) ∅
  checkCycles qty order [] (List.range qty)
  return order

structure Schedule where
  todo : List Nat
  dependencies : Dependencies

namespace Schedule

def ready (s : Schedule) : List Nat × Schedule :=
  (s.todo.filter fun ix => ¬ s.dependencies.has ix,
    { s with todo := s.todo.filter fun ix => s.dependencies.has ix })

def complete (completed : Nat) (s : Schedule) : Schedule :=
  let dependencies := s.dependencies.filterMap fun deps =>
    let deps := deps.filter fun dep => dep ≠ completed
    if deps = [] then none else some deps
  { s with dependencies }

def cancel (ix : Nat) (s : Schedule) : Schedule :=
  { s with todo := s.todo.filter fun task => task ≠ ix }

def dependents (dependency : Nat) (s : Schedule) : List Nat :=
  (s.dependencies.entries.filter fun e => dependency ∈ e.2).map fun e => e.1

def pending (s : Schedule) : Bool := ¬ s.todo.isEmpty

end Schedule

def makeSchedule (job : Job) : Except String Schedule := do
  let dependencies ← makeDependencies job.taskQty job.order
  return { todo := List.range job.taskQty, dependencies }

section Normalization

/-- The first task depends on the second one. -/
def Requires (order : Dependencies) (i j : Nat) : Prop := j ∈ (order.get i).getD []

/-- The order lists the dependency. -/
def Lists (orderArray : JobOrder) (i j : Nat) : Prop :=
  ∃ deps, ((i : Int), deps) ∈ orderArray ∧ (j : Int) ∈ deps

/-- The indices in an order are those of tasks. -/
def IsOrderOf (qty : Nat) (orderArray : JobOrder) : Prop :=
  ∀ e ∈ orderArray, (0 ≤ e.1 ∧ e.1 < qty) ∧ ∀ dep ∈ e.2, 0 ≤ dep ∧ dep < qty

/-- Dependencies as normalized: no task without any, and each one listed. -/
structure Normalized (qty : Nat) (orderArray : JobOrder) (order : Dependencies) : Prop where
  nonempty : ∀ i deps, order.get i = some deps → deps ≠ []
  within : ∀ i j, Requires order i j → i < qty ∧ j < qty
  listed : ∀ i j, Requires order i j → Lists orderArray i j

variable {qty : Nat} {orderArray : JobOrder} {order : Dependencies}

theorem checkNode_ok {node : Int} {i : Nat} (h : checkNode qty node = .ok i) :
    i < qty ∧ node = i := by
  unfold checkNode at h
  split at h
  · cases h
  · cases h
    omega

theorem checkNode_of_valid {node : Int} (h : 0 ≤ node ∧ node < qty) :
    checkNode qty node = .ok node.toNat := by
  unfold checkNode
  rw [if_neg (by omega)]
  rfl

theorem requires_set {i j k : Nat} {deps : List Nat} :
    Requires (order.set i deps) k j ↔ if k = i then j ∈ deps else Requires order k j := by
  unfold Requires
  rw [Record.get_set]
  split <;> rfl

theorem Normalized.add {listed : JobOrder} (h : Normalized qty listed order) {e : Int × List Int}
    {order' : Dependencies} (hadd : addDependencies qty order e = .ok order') :
    Normalized qty (listed ++ [e]) order' := by
  have hmono : ∀ i j, Requires order i j → Lists (listed ++ [e]) i j := by
    intro i j hij
    obtain ⟨deps, hmem, hdep⟩ := h.listed i j hij
    exact ⟨deps, List.mem_append_left _ hmem, hdep⟩
  unfold addDependencies at hadd
  cases hix : checkNode qty e.1 with
  | error message =>
    rw [hix] at hadd
    cases hadd
  | ok ix =>
    obtain ⟨hlt, hnode⟩ := checkNode_ok hix
    rw [hix] at hadd
    dsimp only [bind, Except.bind] at hadd
    split at hadd
    case isFalse =>
      cases hadd
      exact { h with listed := hmono }
    case isTrue hlength =>
      cases hdeps : e.2.mapM (checkNode qty) with
      | error message =>
        rw [hdeps] at hadd
        cases hadd
      | ok deps =>
        rw [hdeps] at hadd
        cases hadd
        have hvalid : ∀ j ∈ deps.eraseDups, j < qty ∧ (j : Int) ∈ e.2 := by
          intro j hj
          obtain ⟨dep, hdep, hcheck⟩ := (mapM_ok_spec hdeps).1 j (List.mem_eraseDups.mp hj)
          obtain ⟨hj, rfl⟩ := checkNode_ok hcheck
          exact ⟨hj, hdep⟩
        constructor
        case nonempty =>
          intro i ds hi
          rw [Record.get_set] at hi
          split at hi
          · cases hi
            obtain ⟨dep, hdep⟩ := List.exists_mem_of_length_pos hlength
            obtain ⟨j, hj, -⟩ := (mapM_ok_spec hdeps).2 dep hdep
            exact List.ne_nil_of_mem (List.mem_eraseDups.mpr hj)
          · exact h.nonempty i ds hi
        case within =>
          intro i j hij
          rw [requires_set] at hij
          split at hij
          case isTrue heq => exact ⟨heq ▸ hlt, (hvalid j hij).1⟩
          case isFalse => exact h.within i j hij
        case listed =>
          intro i j hij
          rw [requires_set] at hij
          split at hij
          case isTrue heq =>
            refine ⟨e.2, ?_, (hvalid j hij).2⟩
            rw [heq, ← hnode]
            exact List.mem_append_right _ (List.mem_singleton_self _)
          case isFalse => exact hmono i j hij

theorem normalized_of_foldlM (h : orderArray.foldlM (addDependencies qty) ∅ = .ok order) :
    Normalized qty orderArray order := by
  have hempty : Normalized qty [] (∅ : Dependencies) := ⟨nofun, nofun, nofun⟩
  apply foldlM_invariant (P := fun listed order => Normalized qty listed order) _ hempty h
  exact fun _ _ _ _ _ hnormalized hadd => hnormalized.add hadd

theorem foldlM_of_isOrderOf (h : IsOrderOf qty orderArray) :
    ∃ order, orderArray.foldlM (addDependencies qty) ∅ = .ok order := by
  generalize (∅ : Dependencies) = start
  induction orderArray generalizing start with
  | nil => exact ⟨start, rfl⟩
  | cons e rest ih =>
    obtain ⟨hnode, hdeps⟩ := h e List.mem_cons_self
    have hrest := ih fun e' he' => h e' (List.mem_cons_of_mem _ he')
    have hadd : ∃ next, addDependencies qty start e = .ok next := by
      unfold addDependencies
      rw [checkNode_of_valid hnode]
      dsimp only [bind, Except.bind]
      split
      · obtain ⟨deps, hmap⟩ := exists_mapM_ok (checkNode qty) e.2
          fun dep hdep => ⟨_, checkNode_of_valid (hdeps dep hdep)⟩
        rw [hmap]
        exact ⟨_, rfl⟩
      · exact ⟨start, rfl⟩
    obtain ⟨next, hnext⟩ := hadd
    rw [List.foldlM_cons, hnext]
    exact hrest next

theorem addDependencies_ok {e : Int × List Int} {order' : Dependencies}
    (h : addDependencies qty order e = .ok order') :
    ∃ ix, checkNode qty e.1 = .ok ix ∧ (e.2 = [] ∧ order' = order ∨
      ∃ deps, e.2.mapM (checkNode qty) = .ok deps ∧ order' = order.set ix deps.eraseDups) := by
  obtain ⟨ix, hix, hadd⟩ := bind_eq_ok.mp h
  refine ⟨ix, hix, ?_⟩
  split at hadd
  case isTrue =>
    obtain ⟨deps, hdeps, hset⟩ := bind_eq_ok.mp hadd
    cases hset
    exact .inr ⟨deps, hdeps, rfl⟩
  case isFalse hlength =>
    cases hadd
    exact .inl ⟨List.length_eq_zero_iff.mp (by omega), rfl⟩

theorem isOrderOf_of_foldlM (h : orderArray.foldlM (addDependencies qty) ∅ = .ok order) :
    IsOrderOf qty orderArray := by
  apply foldlM_invariant (P := fun listed _ => IsOrderOf qty listed) _ nofun h
  intro listed e _ order order' hlisted hadd e' he'
  rcases List.mem_append.mp he' with he' | he'
  · exact hlisted e' he'
  obtain rfl := List.mem_singleton.mp he'
  obtain ⟨ix, hix, hdeps⟩ := addDependencies_ok hadd
  obtain ⟨hlt, hnode⟩ := checkNode_ok hix
  refine ⟨by omega, ?_⟩
  intro dep hdep
  rcases hdeps with ⟨hnil, -⟩ | ⟨deps, hmap, -⟩
  · rw [hnil] at hdep
    cases hdep
  · obtain ⟨j, -, hj⟩ := (mapM_ok_spec hmap).2 dep hdep
    obtain ⟨hj, hdep⟩ := checkNode_ok hj
    omega

theorem requires_of_lists (honce : (orderArray.map Prod.fst).Nodup)
    (h : orderArray.foldlM (addDependencies qty) ∅ = .ok order) {i j : Nat}
    (hlists : Lists orderArray i j) : Requires order i j := by
  have hall := foldlM_invariant (P := fun (listed : JobOrder) order =>
    (listed.map Prod.fst).Nodup → ∀ i j, Lists listed i j → Requires order i j) ?_
    (fun _ _ _ hij => absurd hij.choose_spec.1 List.not_mem_nil) h
  · exact hall honce i j hlists
  intro listed e _ order order' hlisted hadd hnodup i j hij
  rw [List.map_append, List.nodup_append] at hnodup
  obtain ⟨hbefore, -, hother⟩ := hnodup
  obtain ⟨deps, hmem, hdep⟩ := hij
  obtain ⟨ix, hix, hdeps⟩ := addDependencies_ok hadd
  obtain ⟨-, hnode⟩ := checkNode_ok hix
  rcases List.mem_append.mp hmem with hmem | hmem
  · have hne : (i : Int) ≠ e.1 :=
      hother i (List.mem_map_of_mem hmem) e.1 (List.mem_singleton_self _)
    have hold := hlisted hbefore i j ⟨deps, hmem, hdep⟩
    rcases hdeps with ⟨-, rfl⟩ | ⟨ds, -, rfl⟩
    · exact hold
    · rw [requires_set, if_neg (by omega)]
      exact hold
  · obtain rfl := List.mem_singleton.mp hmem
    rcases hdeps with ⟨hnil, -⟩ | ⟨ds, hmap, rfl⟩
    · dsimp only at hnil
      rw [hnil] at hdep
      cases hdep
    · rw [requires_set, if_pos (by dsimp only at hnode; omega)]
      obtain ⟨d, hd, hcheck⟩ := (mapM_ok_spec hmap).2 j hdep
      have hsame := (checkNode_ok hcheck).2
      have hjd : j = d := by omega
      exact List.mem_eraseDups.mpr (hjd ▸ hd)

end Normalization

section Cycles

variable {qty : Nat} {order : Dependencies}

theorem length_le_of_nodup {xs : List Nat} {n : Nat} (hnodup : xs.Nodup)
    (hlt : ∀ x ∈ xs, x < n) : xs.length ≤ n := by
  have hsub : xs.toFinset ⊆ Finset.range n :=
    fun x hx => Finset.mem_range.mpr (hlt x (List.mem_toFinset.mp hx))
  have hcard := Finset.card_le_card hsub
  rwa [List.toFinset_card_of_nodup hnodup, Finset.card_range] at hcard

/-- A search under way: the nodes that are left of the stack again are in an order
in which they can be completed. -/
structure Visiting (qty : Nat) (order : Dependencies) (fuel : Nat) (stack visited : List Nat) :
    Prop where
  nodup : stack.Nodup
  within : ∀ x ∈ stack, x < qty
  seen : ∀ x ∈ stack, x ∈ visited
  finished : Completable (Requires order) (visited.toFinset \ stack.toFinset)
  deep : qty < fuel + stack.length

/-- What a visit of nodes comes to: a cycle, or the nodes are finished too. -/
def Found (order : Dependencies) (stack visited nodes : List Nat) : Bool × List Nat → Prop
  | (true, _) => ∃ x, Relation.TransGen (Requires order) x x
  | (false, visited') => (∀ x ∈ visited, x ∈ visited') ∧ (∀ x ∈ nodes, x ∈ visited' ∧ x ∉ stack) ∧
      Completable (Requires order) (visited'.toFinset \ stack.toFinset)

theorem Visiting.extend {fuel : Nat} {stack visited visited' : List Nat}
    (h : Visiting qty order fuel stack visited) (hsub : ∀ x ∈ visited, x ∈ visited')
    (hfinished : Completable (Requires order) (visited'.toFinset \ stack.toFinset)) :
    Visiting qty order fuel stack visited' :=
  { h with
    seen := fun x hx => hsub x (h.seen x hx)
    finished := hfinished }

theorem anyCycle_found {fuel : Nat} {stack : List Nat}
    {visit : List Nat → Nat → Bool × List Nat} {deps : List Nat}
    (hvisit : ∀ visited, Visiting qty order fuel stack visited → ∀ dep ∈ deps,
      Found order stack visited [dep] (visit visited dep)) {visited : List Nat}
    (h : Visiting qty order fuel stack visited) :
    Found order stack visited deps (anyCycle visit visited deps) := by
  induction deps generalizing visited with
  | nil => exact ⟨fun x hx => hx, nofun, h.finished⟩
  | cons dep deps ih =>
    have hfirst := hvisit visited h dep List.mem_cons_self
    unfold anyCycle
    cases hrun : visit visited dep with
    | mk found visited' =>
      rw [hrun] at hfirst
      cases found with
      | true => exact hfirst
      | false =>
        obtain ⟨hsub, hdep, hfinished⟩ := hfirst
        have hrest := ih (fun v hv d hd => hvisit v hv d (List.mem_cons_of_mem _ hd))
          (h.extend hsub hfinished)
        dsimp only
        cases hnext : anyCycle visit visited' deps with
        | mk found visited'' =>
          rw [hnext] at hrest
          cases found with
          | true => exact hrest
          | false =>
            obtain ⟨hsub', hdeps, hfinished'⟩ := hrest
            refine ⟨fun x hx => hsub' x (hsub x hx), ?_, hfinished'⟩
            intro x hx
            rcases List.mem_cons.mp hx with rfl | hx
            · obtain ⟨hin, hout⟩ := hdep x (List.mem_singleton_self x)
              exact ⟨hsub' x hin, hout⟩
            · exact hdeps x hx

theorem hasCycle_found (hwithin : ∀ i j, Requires order i j → j < qty) {fuel : Nat}
    {stack visited : List Nat} (h : Visiting qty order fuel stack visited) {node : Nat}
    (hnode : node < qty) (hpath : ∀ x ∈ stack, Relation.TransGen (Requires order) x node) :
    Found order stack visited [node] (hasCycle order fuel stack visited node) := by
  induction fuel generalizing stack visited node with
  | zero =>
    -- The stack cannot hold more nodes than there are.
    have hlength := length_le_of_nodup h.nodup h.within
    have hdeep := h.deep
    omega
  | succ fuel ih =>
    unfold hasCycle
    by_cases hstack : node ∈ stack
    · rw [if_pos hstack]
      exact ⟨node, hpath node hstack⟩
    rw [if_neg hstack]
    by_cases hvisited : node ∈ visited
    · rw [if_pos hvisited]
      refine ⟨fun x hx => hx, ?_, h.finished⟩
      intro x hx
      rw [List.mem_singleton.mp hx]
      exact ⟨hvisited, hstack⟩
    rw [if_neg hvisited]
    have hsame : (node :: visited).toFinset \ (node :: stack).toFinset =
        visited.toFinset \ stack.toFinset := by
      ext x
      simp only [Finset.mem_sdiff, List.mem_toFinset, List.mem_cons, not_or]
      constructor
      · rintro ⟨rfl | hx, hne, hx'⟩
        · exact absurd rfl hne
        · exact ⟨hx, hx'⟩
      · rintro ⟨hx, hx'⟩
        refine ⟨.inr hx, ?_, hx'⟩
        rintro rfl
        exact hvisited hx
    have hnext : Visiting qty order fuel (node :: stack) (node :: visited) := by
      constructor
      case nodup => exact List.nodup_cons.mpr ⟨hstack, h.nodup⟩
      case within =>
        intro x hx
        rcases List.mem_cons.mp hx with rfl | hx
        · exact hnode
        · exact h.within x hx
      case seen =>
        intro x hx
        rcases List.mem_cons.mp hx with rfl | hx
        · exact List.mem_cons_self
        · exact List.mem_cons_of_mem _ (h.seen x hx)
      case finished =>
        rw [hsame]
        exact h.finished
      case deep =>
        have hdeep := h.deep
        rw [List.length_cons]
        omega
    have hvisit : ∀ visited, Visiting qty order fuel (node :: stack) visited →
        ∀ dep ∈ (order.get node).getD [], Found order (node :: stack) visited [dep]
          (hasCycle order fuel (node :: stack) visited dep) := by
      intro visited' hvisiting dep hdep
      apply ih hvisiting (hwithin node dep hdep)
      intro x hx
      rcases List.mem_cons.mp hx with rfl | hx
      · exact .single hdep
      · exact (hpath x hx).tail hdep
    have hloop := anyCycle_found hvisit hnext
    cases hrun : anyCycle (hasCycle order fuel (node :: stack)) (node :: visited)
        ((order.get node).getD []) with
    | mk found visited' =>
      rw [hrun] at hloop
      cases found with
      | true => exact hloop
      | false =>
        obtain ⟨hsub, hdeps, hfinished⟩ := hloop
        have hmem : node ∈ visited' := hsub node List.mem_cons_self
        refine ⟨fun x hx => hsub x (List.mem_cons_of_mem _ hx), ?_, ?_⟩
        · intro x hx
          rw [List.mem_singleton.mp hx]
          exact ⟨hmem, hstack⟩
        · -- The node is finished after all that it depends on.
          have hinsert : visited'.toFinset \ stack.toFinset =
              insert node (visited'.toFinset \ (node :: stack).toFinset) := by
            ext x
            simp only [Finset.mem_insert, Finset.mem_sdiff, List.mem_toFinset, List.mem_cons, not_or]
            constructor
            · rintro ⟨hx, hx'⟩
              by_cases hxn : x = node
              · exact .inl hxn
              · exact .inr ⟨hx, hxn, hx'⟩
            · rintro (rfl | ⟨hx, -, hx'⟩)
              · exact ⟨hmem, hstack⟩
              · exact ⟨hx, hx'⟩
          rw [hinsert]
          apply hfinished.complete
          intro dep hdep
          obtain ⟨hin, hout⟩ := hdeps dep hdep
          exact Finset.mem_sdiff.mpr ⟨List.mem_toFinset.mpr hin, fun hx => hout (List.mem_toFinset.mp hx)⟩

theorem checkCycles_spec (hwithin : ∀ i j, Requires order i j → j < qty) {nodes : List Nat}
    (hnodes : ∀ x ∈ nodes, x < qty) (visited : List Nat)
    (h : Completable (Requires order) visited.toFinset) :
    match checkCycles qty order visited nodes with
    | .ok _ => ∃ S, Completable (Requires order) S ∧ (∀ x ∈ visited, x ∈ S) ∧ ∀ x ∈ nodes, x ∈ S
    | .error _ => ∃ x, Relation.TransGen (Requires order) x x := by
  induction nodes generalizing visited with
  | nil => exact ⟨_, h, fun x hx => List.mem_toFinset.mpr hx, nofun⟩
  | cons node nodes ih =>
    have hrest : ∀ x ∈ nodes, x < qty := fun x hx => hnodes x (List.mem_cons_of_mem _ hx)
    unfold checkCycles
    by_cases hvisited : node ∈ visited
    · rw [if_pos hvisited]
      have hnext := ih hrest visited h
      cases hrun : checkCycles qty order visited nodes with
      | error e =>
        rw [hrun] at hnext
        exact hnext
      | ok u =>
        rw [hrun] at hnext
        obtain ⟨S, hS, hsub, hmem⟩ := hnext
        refine ⟨S, hS, hsub, ?_⟩
        intro x hx
        rcases List.mem_cons.mp hx with rfl | hx
        · exact hsub x hvisited
        · exact hmem x hx
    · rw [if_neg hvisited]
      have hvisiting : Visiting qty order (qty + 1) [] visited := by
        constructor
        case nodup => exact List.nodup_nil
        case within => exact nofun
        case seen => exact nofun
        case finished =>
          rw [List.toFinset_nil, Finset.sdiff_empty]
          exact h
        case deep => exact Nat.lt_succ_self qty
      have hfound := hasCycle_found hwithin hvisiting (hnodes node List.mem_cons_self) nofun
      cases hcycle : hasCycle order (qty + 1) [] visited node with
      | mk found visited' =>
        rw [hcycle] at hfound
        cases found with
        | true => exact hfound
        | false =>
          obtain ⟨hsub, hnode, hfinished⟩ := hfound
          rw [List.toFinset_nil, Finset.sdiff_empty] at hfinished
          have hnext := ih hrest visited' hfinished
          dsimp only
          cases hrun : checkCycles qty order visited' nodes with
          | error e =>
            rw [hrun] at hnext
            exact hnext
          | ok u =>
            rw [hrun] at hnext
            obtain ⟨S, hS, hsub', hmem⟩ := hnext
            refine ⟨S, hS, fun x hx => hsub' x (hsub x hx), ?_⟩
            intro x hx
            rcases List.mem_cons.mp hx with rfl | hx
            · exact hsub' x (hnode x (List.mem_singleton_self x)).1
            · exact hmem x hx

variable {orderArray : JobOrder}

theorem foldlM_of_makeDependencies (h : makeDependencies qty orderArray = .ok order) :
    orderArray.foldlM (addDependencies qty) ∅ = .ok order := by
  obtain ⟨start, hfold, hcheck⟩ := bind_eq_ok.mp h
  obtain ⟨u, -, hdone⟩ := bind_eq_ok.mp hcheck
  cases hdone
  exact hfold

theorem makeDependencies_ok (h : makeDependencies qty orderArray = .ok order) :
    Normalized qty orderArray order ∧ Completable (Requires order) (Finset.range qty) := by
  unfold makeDependencies at h
  cases hfold : orderArray.foldlM (addDependencies qty) ∅ with
  | error e =>
    rw [hfold] at h
    cases h
  | ok start =>
    rw [hfold] at h
    dsimp only [bind, Except.bind] at h
    have hnormalized := normalized_of_foldlM hfold
    have hcheck := checkCycles_spec (fun i j hij => (hnormalized.within i j hij).2)
      (fun x hx => List.mem_range.mp hx) [] .empty
    cases hrun : checkCycles qty start [] (List.range qty) with
    | error e =>
      rw [hrun] at h
      cases h
    | ok u =>
      rw [hrun] at h hcheck
      cases h
      obtain ⟨S, hS, -, hall⟩ := hcheck
      refine ⟨hnormalized, hS.of_subset ?_ ?_⟩
      · intro x hx
        exact hall x (List.mem_range.mpr (Finset.mem_range.mp hx))
      · intro i _ j hij
        exact Finset.mem_range.mpr (hnormalized.within i j hij).2

theorem makeDependencies_of_acyclic (h : IsOrderOf qty orderArray)
    (hacyclic : ∀ i, ¬ Relation.TransGen (Lists orderArray) i i) :
    ∃ order, makeDependencies qty orderArray = .ok order := by
  obtain ⟨order, hfold⟩ := foldlM_of_isOrderOf h
  have hnormalized := normalized_of_foldlM hfold
  have hcheck := checkCycles_spec (fun i j hij => (hnormalized.within i j hij).2)
    (fun x hx => List.mem_range.mp hx) [] .empty
  unfold makeDependencies
  rw [hfold]
  dsimp only [bind, Except.bind]
  cases hrun : checkCycles qty order [] (List.range qty) with
  | error e =>
    rw [hrun] at hcheck
    obtain ⟨x, hx⟩ := hcheck
    exact absurd (Relation.TransGen.mono hnormalized.listed _ _ hx) (hacyclic x)
  | ok u => exact ⟨order, rfl⟩

/-- An order without a cycle that lists each task once at most. -/
structure IsAcyclicOrder (qty : Nat) (orderArray : JobOrder) : Prop where
  valid : IsOrderOf qty orderArray
  once : (orderArray.map Prod.fst).Nodup
  acyclic : ∀ i, ¬ Relation.TransGen (Lists orderArray) i i

theorem mem_fullOrder {n : Nat} {e : Int × List Int} (h : e ∈ fullOrder n) :
    ∃ lo : Nat, lo + 1 < n ∧ e = ((lo : Int) + 1, [(lo : Int)]) := by
  obtain ⟨lo, hlo, rfl⟩ := List.mem_map.mp h
  have hlt := List.mem_range.mp hlo
  exact ⟨lo, by omega, rfl⟩

theorem lists_fullOrder {n i j : Nat} (h : Lists (fullOrder n) i j) : j < i := by
  obtain ⟨deps, hmem, hdep⟩ := h
  obtain ⟨lo, -, heq⟩ := mem_fullOrder hmem
  obtain ⟨hi, rfl⟩ := Prod.mk.inj heq
  have hj := List.mem_singleton.mp hdep
  omega

theorem isAcyclicOrder_fullOrder (n : Nat) : IsAcyclicOrder n (fullOrder n) where
  valid e he := by
    obtain ⟨lo, hlo, rfl⟩ := mem_fullOrder he
    refine ⟨by dsimp only; omega, ?_⟩
    intro dep hdep
    rw [List.mem_singleton.mp hdep]
    omega
  once := by
    unfold fullOrder
    rw [List.map_map]
    apply List.nodup_range.map
    intro i j hij
    dsimp only [Function.comp] at hij
    omega
  acyclic i hcycle := by
    have hless : ∀ {x y}, Relation.TransGen (Lists (fullOrder n)) x y → y < x := by
      intro x y hpath
      induction hpath with
      | single hlists => exact lists_fullOrder hlists
      | tail _ hlists ih => exact (lists_fullOrder hlists).trans ih
    exact absurd (hless hcycle) (lt_irrefl i)

end Cycles

end AgoricSdk.Portfolio
