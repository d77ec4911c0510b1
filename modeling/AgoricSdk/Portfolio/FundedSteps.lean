import AgoricSdk.Lib.Transition
import AgoricSdk.Portfolio.PartialOrder

/-!
The steps of a plan are funded. Whichever steps have started and finished, what a place
still holds covers the parts of the finished inflows that no step has claimed; a step
whose prerequisites are finished is among those that claimed from these, so that its
source holds what it takes. This is for numbers that are held exactly.
-/

namespace AgoricSdk.Portfolio

open Finset (range)

section Numbers

theorem toNumber_of_le {n : Nat} (h : n ≤ 2 ^ 53) : toNumber n = n := by
  unfold toNumber
  rw [BinaryFormat.round_natCast (F := Timer.binary64) h, Nat.floor_natCast]

end Numbers

section Claims

/-- What is unclaimed of the inflows that satisfy the condition. -/
def heldBy (p : Option Nat → Bool) (inflows : List Inflow) : Nat :=
  ((inflows.filter fun inflow => p inflow.stepIdx).map Inflow.unclaimed).sum

variable {p : Option Nat → Bool} {inflows : List Inflow} {unfunded : Nat}

@[simp] theorem heldBy_nil : heldBy p [] = 0 := rfl

@[simp] theorem heldBy_cons (inflow : Inflow) : heldBy p (inflow :: inflows) =
    (if p inflow.stepIdx then inflow.unclaimed else 0) + heldBy p inflows := by
  unfold heldBy
  rw [List.filter_cons]
  split
  · rw [List.map_cons, List.sum_cons]
  · rw [Nat.zero_add]

theorem heldBy_append (more : List Inflow) :
    heldBy p (inflows ++ more) = heldBy p inflows + heldBy p more := by
  unfold heldBy
  rw [List.filter_append, List.map_append, List.sum_append]

/-- All that is unclaimed. -/
def unclaimedTotal (inflows : List Inflow) : Nat := (inflows.map Inflow.unclaimed).sum

@[simp] theorem unclaimedTotal_cons (inflow : Inflow) :
    unclaimedTotal (inflow :: inflows) = inflow.unclaimed + unclaimedTotal inflows := by
  unfold unclaimedTotal
  rw [List.map_cons, List.sum_cons]

theorem unclaimedTotal_append (more : List Inflow) :
    unclaimedTotal (inflows ++ more) = unclaimedTotal inflows + unclaimedTotal more := by
  unfold unclaimedTotal
  rw [List.map_append, List.sum_append]

theorem heldBy_all : heldBy (fun _ => true) inflows = unclaimedTotal inflows := by
  unfold heldBy unclaimedTotal
  rw [List.filter_true]

/-- What drawing on inflows comes to, where the numbers are exact. -/
structure Claims (inflows : List Inflow) (unfunded : Nat) (result : List Inflow × List Nat) :
    Prop where
  /-- No inflow has more left than before. -/
  held_le : ∀ p : Option Nat → Bool, heldBy p result.1 ≤ heldBy p inflows
  /-- All that is taken comes from the initial supply and the prerequisites. -/
  held_add : ∀ p : Option Nat → Bool, p none = true → (∀ i ∈ result.2, p (some i) = true) →
    unfunded ≤ unclaimedTotal inflows → heldBy p result.1 + unfunded = heldBy p inflows
  prereqs : ∀ i ∈ result.2, some i ∈ inflows.map Inflow.stepIdx
  steps : result.1.map Inflow.stepIdx = inflows.map Inflow.stepIdx

theorem claimInflows_claims (hexact : unclaimedTotal inflows ≤ 2 ^ 53)
    (hunfunded : unfunded ≤ 2 ^ 53) :
    Claims inflows unfunded (claimInflows inflows unfunded) := by
  induction inflows generalizing unfunded with
  | nil =>
    constructor
    case held_le => exact fun p => le_rfl
    case held_add =>
      intro p _ _ hle
      rw [Nat.le_zero.mp hle]
      rfl
    case prereqs => exact nofun
    case steps => rfl
  | cons inflow inflows ih =>
    rw [unclaimedTotal_cons] at hexact
    unfold claimInflows
    by_cases hnone : unfunded = 0
    · rw [if_pos hnone, hnone]
      exact ⟨fun _ => le_rfl, fun _ _ _ _ => rfl, nofun, rfl⟩
    rw [if_neg hnone]
    by_cases hempty : inflow.unclaimed = 0
    · rw [if_pos hempty]
      have hrest := ih (by omega) hunfunded
      constructor
      case held_le =>
        intro p
        have hle := hrest.held_le p
        rw [heldBy_cons, heldBy_cons]
        omega
      case held_add =>
        intro p hsupply hprereqs hle
        rw [unclaimedTotal_cons, hempty] at hle
        have hadd := hrest.held_add p hsupply hprereqs (by omega)
        rw [heldBy_cons, heldBy_cons]
        omega
      case prereqs => exact fun i hi => List.mem_cons_of_mem _ (hrest.prereqs i hi)
      case steps => rw [List.map_cons, List.map_cons, hrest.steps]
    · rw [if_neg hempty]
      dsimp only
      rw [toNumber_of_le (by omega), toNumber_of_le (by omega)]
      have hrest : Claims inflows (unfunded - min inflow.unclaimed unfunded) _ :=
        ih (by omega) (by omega)
      constructor
      case held_le =>
        intro p
        have hle := hrest.held_le p
        rw [heldBy_cons, heldBy_cons]
        dsimp only
        split
        · omega
        · omega
      case held_add =>
        intro p hsupply hprereqs hle
        rw [unclaimedTotal_cons] at hle
        have hadd := hrest.held_add p hsupply
          (fun i hi => hprereqs i (List.mem_append_right _ hi)) (by omega)
        have hcounts : p inflow.stepIdx = true := by
          cases hstep : inflow.stepIdx with
          | none => exact hsupply
          | some i =>
            apply hprereqs i
            rw [hstep]
            exact List.mem_append_left _ (List.mem_singleton_self i)
        rw [heldBy_cons, heldBy_cons]
        dsimp only
        rw [if_pos hcounts, if_pos hcounts]
        omega
      case prereqs =>
        intro i hi
        rcases List.mem_append.mp hi with hi | hi
        · rw [Option.mem_toList] at hi
          exact List.mem_cons.mpr (.inl hi.symm)
        · exact List.mem_cons_of_mem _ (hrest.prereqs i hi)
      case steps => rw [List.map_cons, List.map_cons, hrest.steps]

end Claims

section Amounts

/-- What a flow takes from a place, or brings to it. -/
def moved (place : FlowEdge → PlaceRef) (flows : List SolvedEdgeFlow) (v : PlaceRef) (i : Nat) :
    Nat :=
  match flows[i]? with
  | some f => if place f.edge = v then f.flow else 0
  | none => 0

/-- What all flows together take from a place, or bring to it. -/
def totalMoved (place : FlowEdge → PlaceRef) (flows : List SolvedEdgeFlow) (v : PlaceRef) : Nat :=
  ((flows.filter fun f => place f.edge = v).map SolvedEdgeFlow.flow).sum

variable {place : FlowEdge → PlaceRef} {flows : List SolvedEdgeFlow} {v : PlaceRef}

theorem totalMoved_eq_sum :
    totalMoved place flows v = ∑ i ∈ range flows.length, moved place flows v i := by
  induction flows with
  | nil => rfl
  | cons f flows ih =>
    have hhead : totalMoved place (f :: flows) v =
        (if place f.edge = v then f.flow else 0) + totalMoved place flows v := by
      unfold totalMoved
      rw [List.filter_cons]
      by_cases hv : place f.edge = v
      · rw [if_pos (decide_eq_true hv), if_pos hv, List.map_cons, List.sum_cons]
      · rw [if_neg (by simpa using hv), if_neg hv, Nat.zero_add]
    rw [hhead, ih, List.length_cons, Finset.sum_range_succ', Nat.add_comm]
    rfl

theorem moved_append (f : SolvedEdgeFlow) (i : Nat) :
    moved place (flows ++ [f]) v i =
      moved place flows v i + if i = flows.length then
        if place f.edge = v then f.flow else 0 else 0 := by
  unfold moved
  rcases lt_trichotomy i flows.length with hlt | rfl | hgt
  · rw [List.getElem?_append_left hlt, if_neg hlt.ne, Nat.add_zero]
  · rw [List.getElem?_append_right le_rfl, if_pos rfl, List.getElem?_eq_none le_rfl,
      Nat.sub_self]
    exact (Nat.zero_add _).symm
  · rw [if_neg hgt.ne', List.getElem?_eq_none hgt.le,
      List.getElem?_eq_none (by rw [List.length_append, List.length_singleton]; omega)]

theorem sum_moved_append (f : SolvedEdgeFlow) (S : Finset Nat) :
    ∑ i ∈ S, moved place (flows ++ [f]) v i =
      ∑ i ∈ S, moved place flows v i +
        if flows.length ∈ S ∧ place f.edge = v then f.flow else 0 := by
  simp only [moved_append, Finset.sum_add_distrib, Finset.sum_ite_eq', ite_and]

theorem sum_moved_le_total {S : Finset Nat} (h : S ⊆ range flows.length) :
    ∑ i ∈ S, moved place flows v i ≤ totalMoved place flows v := by
  rw [totalMoved_eq_sum]
  exact Finset.sum_le_sum_of_subset h

theorem moved_of_getElem? {i : Nat} {f : SolvedEdgeFlow} (h : flows[i]? = some f) :
    moved place flows v i = if place f.edge = v then f.flow else 0 := by
  unfold moved
  rw [h]

end Amounts

section Scheduling

variable {flows : List SolvedEdgeFlow} {supplies : Record PlaceRef Nat} {s s' : OrderState}

def OrderState.inflowsAt (s : OrderState) (v : PlaceRef) : List Inflow := (s.inflows.get v).getD []

/-- The flows that have been scheduled, one for each step. -/
def OrderState.steps (flows : List SolvedEdgeFlow) (s : OrderState) : List SolvedEdgeFlow :=
  s.scheduled.filterMap fun idx => flows[idx]?

/-- With what has finished, the steps may have started. -/
def Allows (order : List (Nat × List Nat)) (started finished : Finset Nat) : Prop :=
  ∀ e ∈ order, e.1 ∈ started → ∀ p ∈ e.2, p ∈ finished

def finishedIn (finished : Finset Nat) (stepIdx : Option Nat) : Bool :=
  stepIdx.all fun i => i ∈ finished

/-- How the state while steps are scheduled stands to the flows and the supplies. -/
structure StepsScheduled (flows : List SolvedEdgeFlow) (supplies : Record PlaceRef Nat)
    (s : OrderState) : Prop where
  nodup : s.scheduled.Nodup
  within : ∀ i ∈ s.scheduled, i < flows.length
  total : ∀ v, unclaimedTotal (s.inflowsAt v) = supplyAt s.available v
  balance : ∀ v, supplyAt s.available v +
      ∑ i ∈ s.scheduled.toFinset, moved FlowEdge.src flows v i =
    supplyAt supplies v + ∑ i ∈ s.scheduled.toFinset, moved FlowEdge.dest flows v i
  /-- What has started and what finished inflows have left comes from what has come in. -/
  funded : ∀ started finished : Finset Nat, Allows s.order started finished → ∀ v,
    ∑ i ∈ started, moved FlowEdge.src (s.steps flows) v i +
        heldBy (finishedIn finished) (s.inflowsAt v) ≤
      supplyAt supplies v + ∑ i ∈ finished, moved FlowEdge.dest (s.steps flows) v i
  earlier : ∀ e ∈ s.order, e.1 < s.scheduled.length ∧ ∀ p ∈ e.2, p < e.1
  ascending : (s.order.map Prod.fst).Pairwise (· < ·)
  brought : ∀ v i, some i ∈ (s.inflowsAt v).map Inflow.stepIdx → i < s.scheduled.length

/-- What each place takes in and had at first are held as exact numbers. -/
def Exact (flows : List SolvedEdgeFlow) (supplies : Record PlaceRef Nat) : Prop :=
  ∀ v, supplyAt supplies v + totalMoved FlowEdge.dest flows v ≤ 2 ^ 53

theorem StepsScheduled.scheduled_subset (h : StepsScheduled flows supplies s) :
    s.scheduled.toFinset ⊆ range flows.length :=
  fun i hi => Finset.mem_range.mpr (h.within i (List.mem_toFinset.mp hi))

theorem StepsScheduled.available_le (h : StepsScheduled flows supplies s) (hexact : Exact flows supplies)
    (v : PlaceRef) : supplyAt s.available v ≤ 2 ^ 53 := by
  have hbalance := h.balance v
  have hin : ∑ i ∈ s.scheduled.toFinset, moved FlowEdge.dest flows v i ≤
    totalMoved FlowEdge.dest flows v := sum_moved_le_total h.scheduled_subset
  have hbound := hexact v
  omega

theorem steps_length (h : ∀ i ∈ s.scheduled, i < flows.length) :
    (s.steps flows).length = s.scheduled.length := by
  unfold OrderState.steps
  rw [List.length_filterMap_eq_countP]
  apply List.countP_eq_length.mpr
  intro i hi
  rw [List.getElem?_eq_getElem (h i hi)]
  rfl

theorem supplyAt_set (available : Record PlaceRef Nat) (place v : PlaceRef) (n : Nat) :
    supplyAt (available.set place n) v = if v = place then n else supplyAt available v := by
  unfold supplyAt
  rw [Record.get_set]
  split <;> rfl

section Record

variable {stepIdx flowIdx : Nat} {chosen : SolvedEdgeFlow} {lastChain : String}

theorem inflowsAt_recordStep (v : PlaceRef) :
    (recordStep stepIdx chosen flowIdx lastChain s).inflowsAt v =
      (if v = chosen.edge.src then
        (claimInflows (s.inflowsAt chosen.edge.src) chosen.flow).1 else s.inflowsAt v) ++
        if v = chosen.edge.dest then [⟨some stepIdx, chosen.flow⟩] else [] := by
  unfold recordStep OrderState.inflowsAt
  dsimp only
  rw [Record.get_set]
  by_cases hdest : v = chosen.edge.dest
  · rw [if_pos hdest, if_pos hdest, ← hdest, Record.get_set]
    split <;> rfl
  · rw [if_neg hdest, if_neg hdest, Record.get_set, List.append_nil]
    split <;> rfl

theorem steps_recordStep (hchosen : flows[flowIdx]? = some chosen) :
    (recordStep stepIdx chosen flowIdx lastChain s).steps flows = s.steps flows ++ [chosen] := by
  unfold recordStep OrderState.steps
  dsimp only
  rw [List.filterMap_append, List.filterMap_cons, hchosen]
  rfl

theorem order_recordStep : (recordStep stepIdx chosen flowIdx lastChain s).order =
    if (claimInflows (s.inflowsAt chosen.edge.src) chosen.flow).2 = [] then s.order
    else s.order ++
      [(stepIdx, (claimInflows (s.inflowsAt chosen.edge.src) chosen.flow).2)] := rfl

theorem sum_insert_moved (hchosen : flows[flowIdx]? = some chosen)
    (hnew : flowIdx ∉ s.scheduled) (place : FlowEdge → PlaceRef) (v : PlaceRef) :
    ∑ i ∈ insert flowIdx s.scheduled.toFinset, moved place flows v i =
      (if place chosen.edge = v then chosen.flow else 0) +
        ∑ i ∈ s.scheduled.toFinset, moved place flows v i := by
  rw [Finset.sum_insert (fun hmem => hnew (List.mem_toFinset.mp hmem)),
    moved_of_getElem? hchosen]

theorem StepsScheduled.insert_subset (h : StepsScheduled flows supplies s)
    (hchosen : flows[flowIdx]? = some chosen) :
    insert flowIdx s.scheduled.toFinset ⊆ range flows.length := by
  apply Finset.insert_subset _ h.scheduled_subset
  apply Finset.mem_range.mpr
  by_contra hge
  rw [List.getElem?_eq_none (by omega)] at hchosen
  cases hchosen

/-- The numbers are exact, so that a place has what it had, less what is taken, and what
is brought. -/
theorem StepsScheduled.available_recordStep (h : StepsScheduled flows supplies s)
    (hexact : Exact flows supplies) (hchosen : flows[flowIdx]? = some chosen)
    (hnew : flowIdx ∉ s.scheduled)
    (henough : chosen.flow ≤ supplyAt s.available chosen.edge.src) (v : PlaceRef) :
    supplyAt (recordStep stepIdx chosen flowIdx lastChain s).available v +
        (if chosen.edge.src = v then chosen.flow else 0) =
      supplyAt s.available v + if chosen.edge.dest = v then chosen.flow else 0 := by
  have hbound := h.available_le hexact
  have hadd : supplyAt s.available chosen.edge.dest + chosen.flow ≤
      2 ^ 53 + if chosen.edge.src = chosen.edge.dest then chosen.flow else 0 := by
    have hbalance := h.balance chosen.edge.dest
    have hin := sum_insert_moved hchosen hnew FlowEdge.dest chosen.edge.dest
    have hout := sum_insert_moved hchosen hnew FlowEdge.src chosen.edge.dest
    have hmax : ∑ i ∈ insert flowIdx s.scheduled.toFinset,
        moved FlowEdge.dest flows chosen.edge.dest i ≤
      totalMoved FlowEdge.dest flows chosen.edge.dest :=
        sum_moved_le_total (h.insert_subset hchosen)
    have hlimit := hexact chosen.edge.dest
    rw [if_pos rfl] at hin
    omega
  unfold recordStep
  dsimp only
  rw [supplyAt_set, supplyAt_set, supplyAt_set,
    toNumber_of_le ((Nat.sub_le _ _).trans (hbound chosen.edge.src))]
  by_cases hsame : chosen.edge.dest = chosen.edge.src
  · rw [if_pos hsame.symm, hsame] at hadd
    rw [if_pos hsame, toNumber_of_le (by omega), hsame]
    by_cases hv : v = chosen.edge.src
    · rw [if_pos hv, if_pos hv.symm, hv]
      omega
    · rw [if_neg hv, if_neg hv, if_neg (Ne.symm hv)]
  · rw [if_neg (Ne.symm hsame)] at hadd
    rw [if_neg hsame, toNumber_of_le (by omega)]
    by_cases hdest : v = chosen.edge.dest
    · rw [if_pos hdest, if_pos hdest.symm, if_neg (by rw [hdest]; exact Ne.symm hsame), hdest]
      omega
    · rw [if_neg hdest, if_neg (Ne.symm hdest)]
      by_cases hsrc : v = chosen.edge.src
      · rw [if_pos hsrc, if_pos hsrc.symm, hsrc]
        omega
      · rw [if_neg hsrc, if_neg (Ne.symm hsrc)]

theorem planned_recordStep (h : StepsScheduled flows supplies s) (hexact : Exact flows supplies)
    (hchosen : flows[flowIdx]? = some chosen) (hnew : flowIdx ∉ s.scheduled)
    (henough : chosen.flow ≤ supplyAt s.available chosen.edge.src)
    (hstep : stepIdx = s.scheduled.length) :
    StepsScheduled flows supplies (recordStep stepIdx chosen flowIdx lastChain s) := by
  have hbound := h.available_le hexact
  have havailable : ∀ v,
      supplyAt (recordStep stepIdx chosen flowIdx lastChain s).available v +
          (if chosen.edge.src = v then chosen.flow else 0) =
        supplyAt s.available v + if chosen.edge.dest = v then chosen.flow else 0 :=
    h.available_recordStep hexact hchosen hnew henough
  have hclaims : Claims (s.inflowsAt chosen.edge.src) chosen.flow
      (claimInflows (s.inflowsAt chosen.edge.src) chosen.flow) := by
    apply claimInflows_claims
    · rw [h.total]
      exact hbound _
    · exact henough.trans (hbound _)
  have hcovered : chosen.flow ≤ unclaimedTotal (s.inflowsAt chosen.edge.src) := by
    rw [h.total]
    exact henough
  have hset : (recordStep stepIdx chosen flowIdx lastChain s).scheduled.toFinset =
      insert flowIdx s.scheduled.toFinset := by
    show (s.scheduled ++ [flowIdx]).toFinset = _
    ext i
    simp
  have hlength : (recordStep stepIdx chosen flowIdx lastChain s).scheduled.length =
      s.scheduled.length + 1 := List.length_append
  have hsteps := steps_length h.within (s := s)
  have horder : ∀ e, e ∈ (recordStep stepIdx chosen flowIdx lastChain s).order ↔
      e ∈ s.order ∨ e = (stepIdx, (claimInflows (s.inflowsAt chosen.edge.src) chosen.flow).2) ∧
        (claimInflows (s.inflowsAt chosen.edge.src) chosen.flow).2 ≠ [] := by
    intro e
    rw [order_recordStep]
    split
    case isTrue hnone => simp [hnone]
    case isFalse hsome => simp [hsome]
  constructor
  case nodup =>
    show (s.scheduled ++ [flowIdx]).Nodup
    rw [List.nodup_append]
    refine ⟨h.nodup, List.nodup_singleton _, ?_⟩
    intro i hi j hj
    rw [List.mem_singleton.mp hj]
    rintro rfl
    exact hnew hi
  case within =>
    intro i hi
    rw [← List.mem_toFinset, hset] at hi
    exact Finset.mem_range.mp (h.insert_subset hchosen hi)
  case total =>
    intro v
    have hv := havailable v
    have htotal := h.total v
    have hsrc := hclaims.held_add (fun _ => true) rfl (fun _ _ => rfl) hcovered
    rw [heldBy_all, heldBy_all] at hsrc
    have hbrought : unclaimedTotal
        (if v = chosen.edge.dest then [⟨some stepIdx, chosen.flow⟩] else []) =
          if chosen.edge.dest = v then chosen.flow else 0 := by
      by_cases hdest : v = chosen.edge.dest
      · rw [if_pos hdest, if_pos hdest.symm]
        rfl
      · rw [if_neg hdest, if_neg (Ne.symm hdest)]
        rfl
    rw [inflowsAt_recordStep, unclaimedTotal_append, hbrought]
    by_cases hv' : v = chosen.edge.src
    · rw [if_pos hv'.symm] at hv
      rw [if_pos hv']
      rw [hv'] at htotal hv ⊢
      omega
    · rw [if_neg (Ne.symm hv')] at hv
      rw [if_neg hv']
      omega
  case balance =>
    intro v
    have hv := havailable v
    have hbalance := h.balance v
    rw [hset, sum_insert_moved hchosen hnew, sum_insert_moved hchosen hnew]
    omega
  case funded =>
    intro started finished hallows v
    rw [steps_recordStep hchosen, sum_moved_append, sum_moved_append, hsteps,
      inflowsAt_recordStep, heldBy_append]
    have hold := h.funded started finished
      (fun e he => hallows e ((horder e).mpr (.inl he))) v
    have hbrought : heldBy (finishedIn finished)
        (if v = chosen.edge.dest then [⟨some stepIdx, chosen.flow⟩] else []) =
          if s.scheduled.length ∈ finished ∧ chosen.edge.dest = v then chosen.flow else 0 := by
      rw [← hstep]
      by_cases hdest : v = chosen.edge.dest
      · simp [hdest, finishedIn]
      · simp [hdest, Ne.symm hdest]
    have hclaimed : (if s.scheduled.length ∈ started ∧ chosen.edge.src = v then
          chosen.flow else 0) + heldBy (finishedIn finished)
        (if v = chosen.edge.src then
          (claimInflows (s.inflowsAt chosen.edge.src) chosen.flow).1 else s.inflowsAt v) ≤
        heldBy (finishedIn finished) (s.inflowsAt v) := by
      by_cases hv : v = chosen.edge.src
      · rw [if_pos hv, hv]
        by_cases hin : s.scheduled.length ∈ started
        · -- The step has started, so that what it waits for has finished.
          rw [if_pos ⟨hin, rfl⟩]
          have hadd := hclaims.held_add (finishedIn finished) rfl ?_ hcovered
          · omega
          intro p hp
          apply decide_eq_true
          have hsome := (horder _).mpr (.inr ⟨rfl, List.ne_nil_of_mem hp⟩)
          exact hallows _ hsome (hstep ▸ hin) p hp
        · rw [if_neg fun hboth => hin hboth.1, Nat.zero_add]
          exact hclaims.held_le _
      · rw [if_neg hv, if_neg fun hboth => hv hboth.2.symm, Nat.zero_add]
    rw [hbrought]
    omega
  case earlier =>
    intro e he
    rw [hlength]
    rcases (horder e).mp he with he | ⟨rfl, -⟩
    · obtain ⟨hlt, hprereqs⟩ := h.earlier e he
      exact ⟨by omega, hprereqs⟩
    · refine ⟨by dsimp only; omega, fun p hp => ?_⟩
      dsimp only
      rw [hstep]
      exact h.brought _ p (hclaims.prereqs p hp)
  case ascending =>
    rw [order_recordStep]
    split
    · exact h.ascending
    · rw [List.map_append, List.pairwise_append]
      refine ⟨h.ascending, List.pairwise_singleton _ _, ?_⟩
      intro i hi j hj
      obtain ⟨e, he, rfl⟩ := List.mem_map.mp hi
      rw [List.mem_singleton.mp hj, hstep]
      exact (h.earlier e he).1
  case brought =>
    intro v i hi
    rw [hlength]
    rw [inflowsAt_recordStep, List.map_append] at hi
    have hold : ∀ v, some i ∈ (s.inflowsAt v).map Inflow.stepIdx → i < s.scheduled.length + 1 :=
      fun v hi => (h.brought v i hi).trans (Nat.lt_succ_self _)
    rcases List.mem_append.mp hi with hi | hi
    · split at hi
      · rw [hclaims.steps] at hi
        exact hold _ hi
      · exact hold v hi
    · split at hi
      · have hi' := Option.some.inj (List.mem_singleton.mp hi)
        omega
      · cases hi

end Record

section Choice

theorem mem_candidates {f : SolvedEdgeFlow} {i : Nat} : (f, i) ∈ candidates flows s ↔
    flows[i]? = some f ∧ i ∉ s.scheduled ∧ f.flow ≤ supplyAt s.available f.edge.src := by
  unfold candidates
  rw [List.mem_filter, List.mem_zipIdx_iff_getElem?]
  simp

theorem fromSameChain_ok (lastChain : String) {cs : List (SolvedEdgeFlow × Nat)}
    (hchains : ∀ c ∈ cs, ∃ chain, chainOf c.1.edge.src = .ok chain) :
    ∃ group, fromSameChain lastChain cs = .ok group ∧ ∀ c ∈ group, c ∈ cs := by
  induction cs with
  | nil => exact ⟨[], rfl, nofun⟩
  | cons c cs ih =>
    obtain ⟨chain, hchain⟩ := hchains c List.mem_cons_self
    obtain ⟨rest, hrest, hsub⟩ := ih fun c hc => hchains c (List.mem_cons_of_mem _ hc)
    unfold fromSameChain
    rw [hchain, hrest]
    refine ⟨_, rfl, ?_⟩
    intro d hd
    split at hd
    · rcases List.mem_cons.mp hd with rfl | hd
      · exact List.mem_cons_self
      · exact List.mem_cons_of_mem _ (hsub d hd)
    · exact List.mem_cons_of_mem _ (hsub d hd)

theorem chooseGroup_ok {cs : List (SolvedEdgeFlow × Nat)} (lastChain : Option String)
    (hchains : ∀ c ∈ cs, ∃ chain, chainOf c.1.edge.src = .ok chain) :
    ∃ group, chooseGroup cs lastChain = .ok group ∧ (∀ c ∈ group, c ∈ cs) ∧
      (cs ≠ [] → group ≠ []) := by
  have hall : ∃ group, (.ok cs : Except String _) = .ok group ∧ (∀ c ∈ group, c ∈ cs) ∧
      (cs ≠ [] → group ≠ []) := ⟨cs, rfl, fun c hc => hc, id⟩
  cases lastChain with
  | none => exact hall
  | some chain =>
    rw [chooseGroup]
    split
    · exact hall
    · obtain ⟨sameChain, hsame, hsub⟩ := fromSameChain_ok chain hchains
      rw [hsame]
      dsimp only [bind, Except.bind, pure, Except.pure]
      split
      · exact hall
      · exact ⟨sameChain, rfl, hsub, fun _ => ‹_›⟩

theorem scheduleStep_ok (stepIdx : Nat)
    (hchains : ∀ f ∈ flows, ∃ chain, chainOf f.edge.src = .ok chain)
    (hsome : candidates flows s ≠ []) :
    ∃ chosen flowIdx lastChain, (chosen, flowIdx) ∈ candidates flows s ∧
      scheduleStep flows stepIdx s = .ok (recordStep stepIdx chosen flowIdx lastChain s) := by
  have hcandidates : ∀ c ∈ candidates flows s, ∃ chain, chainOf c.1.edge.src = .ok chain := by
    rintro ⟨f, i⟩ hc
    exact hchains f (List.mem_of_getElem? (mem_candidates.mp hc).1)
  obtain ⟨group, hgroup, hsub, hne⟩ := chooseGroup_ok s.lastChain hcandidates
  have hperm := List.perm_insertionSort
    (fun a b : SolvedEdgeFlow × Nat => naturalCompare a.1.edge.id b.1.edge.id ≠ .gt) group
  unfold scheduleStep
  rw [hgroup]
  dsimp only [bind, Except.bind]
  cases hsorted : group.insertionSort
      (fun a b : SolvedEdgeFlow × Nat => naturalCompare a.1.edge.id b.1.edge.id ≠ .gt) with
  | nil =>
    rw [hsorted] at hperm
    exact absurd hperm.symm.eq_nil (hne hsome)
  | cons c rest =>
    obtain ⟨chosen, flowIdx⟩ := c
    have hmem : (chosen, flowIdx) ∈ candidates flows s := by
      apply hsub
      rw [← hperm.mem_iff, hsorted]
      exact List.mem_cons_self
    obtain ⟨chain, hchain⟩ := hcandidates _ hmem
    refine ⟨chosen, flowIdx, chain, hmem, ?_⟩
    dsimp only at hchain ⊢
    rw [hchain]
    rfl

end Choice

section Progress

/-- Each place has, at first or from flows to it, what is taken from it. -/
def Covered (flows : List SolvedEdgeFlow) (supplies : Record PlaceRef Nat) : Prop :=
  ∀ v, totalMoved FlowEdge.src flows v ≤
    supplyAt supplies v + totalMoved FlowEdge.dest flows v

/-- Some flow goes from the first place to the second. -/
def UsesEdge (flows : List SolvedEdgeFlow) (u v : PlaceRef) : Prop :=
  ∃ f ∈ flows, f.edge.src = u ∧ f.edge.dest = v

theorem exists_unfed (hacyclic : ∀ v, ¬ Relation.TransGen (UsesEdge flows) v v)
    {scheduled : List Nat} {i : Nat} (hi : i < flows.length) (hleft : i ∉ scheduled) :
    ∃ f k, flows[k]? = some f ∧ k ∉ scheduled ∧
      ∀ g j, flows[j]? = some g → j ∉ scheduled → g.edge.dest ≠ f.edge.src := by
  let feeds : Fin flows.length → Fin flows.length → Prop :=
    fun j k => flows[j].edge.dest = flows[k].edge.src
  have hpath : ∀ j k, Relation.TransGen feeds j k →
      Relation.TransGen (UsesEdge flows) flows[j].edge.src flows[k].edge.src := by
    intro j k hjk
    induction hjk with
    | single hfeeds => exact .single ⟨flows[j], List.getElem_mem _, rfl, hfeeds⟩
    | tail _ hfeeds ih => exact ih.tail ⟨_, List.getElem_mem _, rfl, hfeeds⟩
  have hirrefl : Std.Irrefl (Relation.TransGen feeds) :=
    ⟨fun j hj => hacyclic _ (hpath j j hj)⟩
  have hwf := Finite.wellFounded_of_trans_of_irrefl (Relation.TransGen feeds)
  obtain ⟨k, hk, hmin⟩ := hwf.has_min { k | k.val ∉ scheduled } ⟨⟨i, hi⟩, hleft⟩
  refine ⟨flows[k], k, List.getElem?_eq_getElem k.isLt, hk, ?_⟩
  intro g j hg hj hfeeds
  obtain ⟨hlt, rfl⟩ := List.getElem?_eq_some_iff.mp hg
  exact hmin ⟨j, hlt⟩ hj (.single hfeeds)

theorem StepsScheduled.candidates_ne_nil (h : StepsScheduled flows supplies s) (hcovered : Covered flows supplies)
    (hacyclic : ∀ v, ¬ Relation.TransGen (UsesEdge flows) v v)
    (hmore : s.scheduled.length < flows.length) : candidates flows s ≠ [] := by
  have hleft : ∃ i, i < flows.length ∧ i ∉ s.scheduled := by
    by_contra hnone
    have hall : range flows.length ⊆ s.scheduled.toFinset := by
      intro i hi
      rw [List.mem_toFinset]
      by_contra hout
      exact hnone ⟨i, Finset.mem_range.mp hi, hout⟩
    have hcard := Finset.card_le_card hall
    rw [List.toFinset_card_of_nodup h.nodup, Finset.card_range] at hcard
    omega
  obtain ⟨i, hi, hout⟩ := hleft
  obtain ⟨f, k, hf, hk, hfed⟩ := exists_unfed hacyclic hi hout
  apply List.ne_nil_of_mem
  apply mem_candidates.mpr
  refine ⟨hf, hk, ?_⟩
  -- All that its source is to take in has been scheduled.
  have hin : ∑ j ∈ s.scheduled.toFinset, moved FlowEdge.dest flows f.edge.src j =
      totalMoved FlowEdge.dest flows f.edge.src := by
    rw [totalMoved_eq_sum]
    apply Finset.sum_subset h.scheduled_subset
    intro j _ hj
    rw [List.mem_toFinset] at hj
    unfold moved
    cases hg : flows[j]? with
    | none => rfl
    | some g => exact if_neg (hfed g j hg hj)
  have hmax : ∑ j ∈ insert k s.scheduled.toFinset, moved FlowEdge.src flows f.edge.src j ≤
    totalMoved FlowEdge.src flows f.edge.src := sum_moved_le_total (h.insert_subset hf)
  rw [sum_insert_moved hf hk, if_pos rfl] at hmax
  have hbalance := h.balance f.edge.src
  have henough := hcovered f.edge.src
  omega

theorem planned_start : StepsScheduled flows supplies
    { available := supplies, inflows := supplies.map fun value => [⟨none, value⟩] } := by
  have hinflows : ∀ v, OrderState.inflowsAt
      { available := supplies, inflows := supplies.map fun value => [⟨none, value⟩] } v =
        (supplies.get v).elim [] fun value => [⟨none, value⟩] := by
    intro v
    unfold OrderState.inflowsAt
    dsimp only
    rw [Record.get_map]
    cases supplies.get v <;> rfl
  constructor
  case nodup => exact List.nodup_nil
  case within => exact fun i hi => absurd hi List.not_mem_nil
  case total =>
    intro v
    rw [hinflows]
    unfold supplyAt
    cases supplies.get v <;> rfl
  case balance => exact fun v => rfl
  case funded =>
    intro started finished _ v
    have hnone : ∀ (place : FlowEdge → PlaceRef) (S : Finset Nat),
        ∑ i ∈ S, moved place [] v i = 0 := fun place S => Finset.sum_eq_zero fun i _ => rfl
    show ∑ i ∈ started, moved FlowEdge.src [] v i + _ ≤
      _ + ∑ i ∈ finished, moved FlowEdge.dest [] v i
    rw [hnone, hnone, hinflows]
    unfold supplyAt
    cases supplies.get v with
    | none => exact le_rfl
    | some value =>
      rw [Option.elim_some, heldBy_cons, heldBy_nil]
      split <;> dsimp only [Option.getD_some] <;> omega
  case earlier => exact fun e he => absurd he List.not_mem_nil
  case ascending => exact List.Pairwise.nil
  case brought =>
    intro v i hi
    rw [hinflows] at hi
    cases hvalue : supplies.get v with
    | some value =>
      rw [hvalue] at hi
      cases List.mem_singleton.mp hi
    | none =>
      rw [hvalue] at hi
      cases hi

theorem scheduleSteps_ok (hexact : Exact flows supplies) (hcovered : Covered flows supplies)
    (hacyclic : ∀ v, ¬ Relation.TransGen (UsesEdge flows) v v)
    (hchains : ∀ f ∈ flows, ∃ chain, chainOf f.edge.src = .ok chain)
    {n : Nat} (h : StepsScheduled flows supplies s) (hleft : s.scheduled.length + n = flows.length) :
    ∃ s', scheduleSteps flows n s.scheduled.length s = .ok s' ∧ StepsScheduled flows supplies s' ∧
      s'.scheduled.length = flows.length := by
  induction n generalizing s with
  | zero => exact ⟨s, rfl, h, hleft⟩
  | succ n ih =>
    have hsome := h.candidates_ne_nil hcovered hacyclic (by omega)
    obtain ⟨chosen, flowIdx, lastChain, hmem, hstep⟩ :=
      scheduleStep_ok s.scheduled.length hchains hsome
    obtain ⟨hchosen, hnew, henough⟩ := mem_candidates.mp hmem
    have hnext : StepsScheduled flows supplies
        (recordStep s.scheduled.length chosen flowIdx lastChain s) :=
      planned_recordStep h hexact hchosen hnew henough rfl
    have hlength : (recordStep s.scheduled.length chosen flowIdx lastChain s).scheduled.length =
        s.scheduled.length + 1 := List.length_append
    obtain ⟨s', hrun, hplanned, hall⟩ := ih hnext (by omega)
    refine ⟨s', ?_, hplanned, hall⟩
    unfold scheduleSteps
    rw [hstep]
    dsimp only [bind, Except.bind]
    rw [hlength] at hrun
    exact hrun

end Progress

end Scheduling

section Execution

/-- Steps under way: what starts takes its amount from the source, what finishes brings it
to the destination. -/
structure StepsRun where
  started : Finset Nat := ∅
  finished : Finset Nat := ∅
  balance : PlaceRef → Int

inductive StepEvent where
  | starts (step : Nat)
  | finishes (step : Nat)
  deriving DecidableEq

/-- What the order has the step wait for is finished. -/
def Unblocked (order : JobOrder) (finished : Finset Nat) (step : Nat) : Prop :=
  ∀ e ∈ order, e.1 = step → ∀ p ∈ e.2, p.toNat ∈ finished

instance (order : JobOrder) (finished : Finset Nat) (step : Nat) :
    Decidable (Unblocked order finished step) := by
  unfold Unblocked
  infer_instance

def runStep (plan : StepsPlan) (r : StepsRun) : StepEvent → Option StepsRun
  | .starts step =>
    match plan.prioritized[step]? with
    | some f =>
      if step ∉ r.started ∧ Unblocked plan.jobOrder r.finished step then
        some { r with
          started := insert step r.started
          balance := Function.update r.balance f.edge.src (r.balance f.edge.src - f.flow) }
      else none
    | none => none
  | .finishes step =>
    match plan.prioritized[step]? with
    | some f =>
      if step ∈ r.started ∧ step ∉ r.finished then
        some { r with
          finished := insert step r.finished
          balance := Function.update r.balance f.edge.dest (r.balance f.edge.dest + f.flow) }
      else none
    | none => none

/-- All interleavings of the steps that respect the order. -/
def runSteps (plan : StepsPlan) (supplies : Record PlaceRef Nat) :
    TransitionSystem StepsRun StepEvent where
  init r := r = { balance := fun v => supplyAt supplies v }
  step := runStep plan

variable {plan : StepsPlan} {supplies : Record PlaceRef Nat} {r r' : StepsRun}

/-- Places have what was there and has come in, less what has been taken. -/
structure RunKept (plan : StepsPlan) (supplies : Record PlaceRef Nat) (r : StepsRun) : Prop where
  balance : ∀ v, r.balance v + ∑ i ∈ r.started, moved FlowEdge.src plan.prioritized v i =
    supplyAt supplies v + ∑ i ∈ r.finished, moved FlowEdge.dest plan.prioritized v i
  unblocked : ∀ i ∈ r.started, Unblocked plan.jobOrder r.finished i

theorem update_apply_eq (balance : PlaceRef → Int) (place v : PlaceRef) (n : Int) :
    Function.update balance place (balance place + n) v =
      balance v + if place = v then n else 0 := by
  by_cases hv : v = place
  · rw [hv, Function.update_self, if_pos rfl]
  · rw [Function.update_of_ne hv, if_neg (Ne.symm hv), add_zero]

theorem RunKept.step (h : RunKept plan supplies r) {a : StepEvent}
    (hstep : runStep plan r a = some r') : RunKept plan supplies r' := by
  cases a with
  | starts step =>
    unfold runStep at hstep
    dsimp only at hstep
    split at hstep
    case h_2 => cases hstep
    case h_1 f hf =>
      obtain ⟨⟨hnew, hunblocked⟩, hr'⟩ := Option.ite_none_right_eq_some.mp hstep
      cases hr'
      constructor
      case balance =>
        intro v
        have hbalance := h.balance v
        dsimp only
        rw [sub_eq_add_neg, update_apply_eq, Finset.sum_insert hnew, moved_of_getElem? hf]
        split
        · rw [Nat.cast_add]
          omega
        · rw [Nat.cast_add]
          omega
      case unblocked =>
        intro i hi
        rcases Finset.mem_insert.mp hi with rfl | hi
        · exact hunblocked
        · exact h.unblocked i hi
  | finishes step =>
    unfold runStep at hstep
    dsimp only at hstep
    split at hstep
    case h_2 => cases hstep
    case h_1 f hf =>
      obtain ⟨⟨hstarted, hnew⟩, hr'⟩ := Option.ite_none_right_eq_some.mp hstep
      cases hr'
      constructor
      case balance =>
        intro v
        have hbalance := h.balance v
        dsimp only
        rw [update_apply_eq, Finset.sum_insert hnew, moved_of_getElem? hf, Nat.cast_add]
        split
        · omega
        · omega
      case unblocked =>
        intro i hi e he hstep p hp
        exact Finset.mem_insert_of_mem (h.unblocked i hi e he hstep p hp)

theorem runKept_of_reachable (h : (runSteps plan supplies).Reachable TransitionSystem.anyStep r) :
    RunKept plan supplies r := by
  apply h.invariant
  · rintro _ rfl
    exact ⟨fun v => rfl, nofun⟩
  · exact fun _ _ _ hr _ hstep => hr.step hstep

end Execution

section Plans

variable {flows : List SolvedEdgeFlow} {supplies : Record PlaceRef Nat} {s : OrderState}

theorem mem_fullOrder_of_isTrivialOrder (h : isTrivialOrder s = true) {e : Nat × List Nat}
    (he : e ∈ s.order) :
    ((e.1 : Int), e.2.map fun p : Nat => (p : Int)) ∈ fullOrder s.scheduled.length := by
  unfold isTrivialOrder at h
  obtain ⟨hlength, hall⟩ := of_decide_eq_true h
  obtain ⟨i, hi, hget⟩ := List.getElem_of_mem he
  have hentry := of_decide_eq_true
    (List.all_eq_true.mp hall (e, i) (List.mem_zipIdx_iff_getElem?.mpr
      (List.getElem?_eq_some_iff.mpr ⟨hi, hget⟩)))
  unfold fullOrder
  apply List.mem_map.mpr
  refine ⟨i, List.mem_range.mpr (by omega), ?_⟩
  rw [hentry]
  rfl

theorem filterMap_range_getElem? {α : Type} (xs : List α) :
    (List.range xs.length).filterMap (fun i => xs[i]?) = xs := by
  induction xs using List.reverseRecOn with
  | nil => rfl
  | append_singleton xs x ih =>
    have hsame : (List.range xs.length).filterMap (fun i => (xs ++ [x])[i]?) =
        (List.range xs.length).filterMap fun i => xs[i]? := by
      apply List.filterMap_congr
      intro i hi
      exact List.getElem?_append_left (List.mem_range.mp hi)
    rw [List.length_append, List.length_singleton, List.range_succ, List.filterMap_append, hsame,
      ih]
    simp

theorem StepsScheduled.perm (h : StepsScheduled flows supplies s) (hall : s.scheduled.length = flows.length) :
    (s.steps flows).Perm flows := by
  have hperm : s.scheduled.Perm (List.range flows.length) := by
    apply List.Subperm.perm_of_length_le
    · apply List.subperm_of_subset h.nodup
      exact fun i hi => List.mem_range.mpr (h.within i hi)
    · rw [List.length_range, hall]
  have hsteps := hperm.filterMap fun idx => flows[idx]?
  rw [filterMap_range_getElem?] at hsteps
  exact hsteps

/-- A plan of all the flows whose steps are funded whenever the order lets them start. -/
structure FundedPlan (flows : List SolvedEdgeFlow) (supplies : Record PlaceRef Nat)
    (plan : StepsPlan) : Prop where
  once : plan.prioritized.Perm flows
  earlier : ∀ order, plan.order = some order → ∀ e ∈ order,
    e.1 < plan.prioritized.length ∧ ∀ p ∈ e.2, p < e.1
  accepted : IsAcyclicOrder plan.prioritized.length plan.jobOrder
  funded : ∀ r, (runSteps plan supplies).Reachable TransitionSystem.anyStep r →
    ∀ step f, plan.prioritized[step]? = some f → (runStep plan r (.starts step)).isSome →
      (f.flow : Int) ≤ r.balance f.edge.src

/-- The plan that a state whose flows are all scheduled stands for. -/
def OrderState.plan (flows : List SolvedEdgeFlow) (s : OrderState) : StepsPlan where
  prioritized := s.steps flows
  order := if isTrivialOrder s then none else some s.order

theorem mem_jobOrder (hlength : (s.steps flows).length = s.scheduled.length)
    {e : Nat × List Nat} (he : e ∈ s.order) :
    ((e.1 : Int), e.2.map fun p : Nat => (p : Int)) ∈ (s.plan flows).jobOrder := by
  unfold OrderState.plan StepsPlan.jobOrder
  by_cases htrivial : isTrivialOrder s = true
  · rw [if_pos htrivial]
    dsimp only
    rw [hlength]
    exact mem_fullOrder_of_isTrivialOrder htrivial he
  · rw [if_neg htrivial]
    exact List.mem_map.mpr ⟨e, he, rfl⟩

theorem isAcyclicOrder_of_earlier {n : Nat} {order : List (Nat × List Nat)}
    (hearlier : ∀ e ∈ order, e.1 < n ∧ ∀ p ∈ e.2, p < e.1)
    (hascending : (order.map Prod.fst).Pairwise (· < ·)) :
    IsAcyclicOrder n
      (order.map fun (target, prereqs) =>
        ((target : Int), prereqs.map fun p : Nat => (p : Int))) where
  valid e' he' := by
    obtain ⟨e, he, rfl⟩ := List.mem_map.mp he'
    obtain ⟨hlt, hprereqs⟩ := hearlier e he
    refine ⟨by dsimp only; omega, ?_⟩
    intro dep hdep
    obtain ⟨p, hp, rfl⟩ := List.mem_map.mp hdep
    have hp' := hprereqs p hp
    omega
  once := by
    rw [List.map_map]
    have hnodup : (order.map Prod.fst).Nodup := hascending.imp fun hlt => hlt.ne
    have hcast := hnodup.map (f := fun i : Nat => (i : Int)) Nat.cast_injective
    rwa [List.map_map] at hcast
  acyclic i hcycle := by
    have hless : ∀ {x y}, Relation.TransGen (Lists (order.map fun (target, prereqs) =>
        ((target : Int), prereqs.map fun p : Nat => (p : Int)))) x y → y < x := by
      intro x y hpath
      have hone : ∀ {x y}, Lists (order.map fun (target, prereqs) =>
          ((target : Int), prereqs.map fun p : Nat => (p : Int))) x y → y < x := by
        rintro x y ⟨deps, hmem, hdep⟩
        obtain ⟨e, he, heq⟩ := List.mem_map.mp hmem
        obtain ⟨htarget, rfl⟩ := Prod.mk.inj heq
        obtain ⟨p, hp, hpy⟩ := List.mem_map.mp hdep
        have hlt := (hearlier e he).2 p hp
        omega
      induction hpath with
      | single hlists => exact hone hlists
      | tail _ hlists ih => exact (hone hlists).trans ih
    exact absurd (hless hcycle) (lt_irrefl i)

theorem StepsScheduled.fundedPlan (h : StepsScheduled flows supplies s)
    (hall : s.scheduled.length = flows.length) : FundedPlan flows supplies (s.plan flows) := by
  have hlength := steps_length h.within
  constructor
  case once => exact h.perm hall
  case earlier =>
    intro order horder e he
    unfold OrderState.plan at horder
    dsimp only at horder
    split at horder
    · cases horder
    · cases horder
      rw [show (s.plan flows).prioritized.length = s.scheduled.length from hlength]
      exact h.earlier e he
  case accepted =>
    unfold OrderState.plan StepsPlan.jobOrder
    by_cases htrivial : isTrivialOrder s = true
    · rw [if_pos htrivial]
      exact isAcyclicOrder_fullOrder _
    · rw [if_neg htrivial]
      dsimp only
      rw [hlength]
      exact isAcyclicOrder_of_earlier h.earlier h.ascending
  case funded =>
    intro r hr step f hf hstarts
    have hkept := runKept_of_reachable hr
    have hmay : step ∉ r.started ∧ Unblocked (s.plan flows).jobOrder r.finished step := by
      unfold runStep at hstarts
      dsimp only at hstarts
      rw [hf] at hstarts
      dsimp only at hstarts
      by_contra hnot
      rw [if_neg hnot] at hstarts
      cases hstarts
    have hallows : Allows s.order (insert step r.started) r.finished := by
      intro e he hin p hp
      have hunblocked : Unblocked (s.plan flows).jobOrder r.finished e.1 := by
        rcases Finset.mem_insert.mp hin with heq | hin
        · rw [heq]
          exact hmay.2
        · exact hkept.unblocked e.1 hin
      exact hunblocked _ (mem_jobOrder hlength he) rfl p (List.mem_map.mpr ⟨p, hp, rfl⟩)
    have hfunded := h.funded _ _ hallows f.edge.src
    have hbalance := hkept.balance f.edge.src
    have htake : moved FlowEdge.src (s.steps flows) f.edge.src step = f.flow :=
      (moved_of_getElem? hf).trans (if_pos rfl)
    rw [Finset.sum_insert hmay.1, htake] at hfunded
    have hsame : (s.plan flows).prioritized = s.steps flows := rfl
    rw [hsame] at hbalance
    omega

/-- Where the numbers are held exactly, flows that do not go in circles and that each place
can cover are planned, and every step of the plan is funded when it starts. -/
theorem computePartialOrder_funded (hcovered : Covered flows supplies)
    (hacyclic : ∀ v, ¬ Relation.TransGen (UsesEdge flows) v v)
    (hchains : ∀ f ∈ flows, ∃ chain, chainOf f.edge.src = .ok chain)
    (hexact : Exact flows supplies) :
    ∃ plan, computePartialOrder flows supplies = .ok plan ∧ FundedPlan flows supplies plan := by
  by_cases hnil : flows = []
  · subst hnil
    refine ⟨_, rfl, ?_⟩
    exact { once := .refl _
            earlier := nofun
            accepted := isAcyclicOrder_fullOrder 0
            funded := fun _ _ _ _ hf => absurd hf nofun }
  · obtain ⟨s, hrun, hplanned, hall⟩ := scheduleSteps_ok hexact hcovered hacyclic hchains
      (planned_start : StepsScheduled flows supplies _) (Nat.zero_add _)
    refine ⟨s.plan flows, ?_, hplanned.fundedPlan hall⟩
    unfold computePartialOrder
    rw [if_neg hnil]
    exact bind_eq_ok.mpr ⟨s, hrun, rfl⟩

theorem acyclic_of_rank (rank : PlaceRef → Nat)
    (h : ∀ f ∈ flows, rank f.edge.src < rank f.edge.dest) (v : PlaceRef) :
    ¬ Relation.TransGen (UsesEdge flows) v v := by
  intro hcycle
  have hless : ∀ {u w}, Relation.TransGen (UsesEdge flows) u w → rank u < rank w := by
    intro u w hpath
    induction hpath with
    | single hedge =>
      obtain ⟨f, hf, rfl, rfl⟩ := hedge
      exact h f hf
    | tail _ hedge ih =>
      obtain ⟨f, hf, rfl, rfl⟩ := hedge
      exact ih.trans (h f hf)
  exact lt_irrefl _ (hless hcycle)

theorem totalMoved_eq_zero {place : FlowEdge → PlaceRef} {v : PlaceRef}
    (h : ∀ f ∈ flows, place f.edge ≠ v) : totalMoved place flows v = 0 := by
  have hnone : (flows.filter fun f => place f.edge = v) = [] := by
    apply List.filter_eq_nil_iff.mpr
    intro f hf
    simpa using h f hf
  unfold totalMoved
  rw [hnone]
  rfl

theorem covered_of_sources (h : ∀ f ∈ flows, totalMoved FlowEdge.src flows f.edge.src ≤
    supplyAt supplies f.edge.src + totalMoved FlowEdge.dest flows f.edge.src) :
    Covered flows supplies := by
  intro v
  by_cases hv : ∃ f ∈ flows, f.edge.src = v
  · obtain ⟨f, hf, rfl⟩ := hv
    exact h f hf
  · rw [totalMoved_eq_zero fun f hf heq => hv ⟨f, hf, heq⟩]
    exact Nat.zero_le _

theorem exact_of_places (h : ∀ v ∈ supplies.keys ++ flows.map fun f => f.edge.dest,
    supplyAt supplies v + totalMoved FlowEdge.dest flows v ≤ 2 ^ 53) : Exact flows supplies := by
  intro v
  by_cases hv : v ∈ supplies.keys ++ flows.map fun f => f.edge.dest
  · exact h v hv
  · rw [List.mem_append, not_or] at hv
    have hsupply : supplyAt supplies v = 0 := by
      unfold supplyAt
      rw [Record.get_eq_none_iff.mpr hv.1]
      rfl
    have hin : totalMoved FlowEdge.dest flows v = 0 :=
      totalMoved_eq_zero fun f hf heq => hv.2 (List.mem_map.mpr ⟨f, hf, heq⟩)
    omega

/-- An account on one chain feeds an account on another, which feeds two more. -/
def fanOut (first second third : Nat) : List SolvedEdgeFlow :=
  [⟨⟨"e0", "@agoric", "@noble"⟩, first⟩, ⟨⟨"e1", "@noble", "@Arbitrum"⟩, second⟩,
    ⟨⟨"e2", "@noble", "@Optimism"⟩, third⟩]

def fanOutSupplies (agoric noble : Nat) : Record PlaceRef Nat :=
  (Record.singleton "@agoric" agoric).set "@noble" noble

theorem fanOut_acyclic (first second third : Nat) (v : PlaceRef) :
    ¬ Relation.TransGen (UsesEdge (fanOut first second third)) v v := by
  apply acyclic_of_rank fun place =>
    if place = "@agoric" then 0 else if place = "@noble" then 1 else 2
  simp [fanOut]

theorem fanOut_chains (first second third : Nat) :
    ∀ f ∈ fanOut first second third, ∃ chain, chainOf f.edge.src = .ok chain := by
  have hagoric : chainOf "@agoric" = .ok "agoric" := by decide +kernel
  have hnoble : chainOf "@noble" = .ok "noble" := by decide +kernel
  simp [fanOut, hagoric, hnoble]

theorem computePartialOrder_funded_fanOut : ∃ plan,
    computePartialOrder (fanOut 100 50 50) (fanOutSupplies 100 0) = .ok plan ∧
      FundedPlan (fanOut 100 50 50) (fanOutSupplies 100 0) plan :=
  computePartialOrder_funded (covered_of_sources (by decide +kernel)) (fanOut_acyclic 100 50 50)
    (fanOut_chains 100 50 50) (exact_of_places (by decide +kernel))

/-- All amounts are safe integers, but what is in hand at one place is not: rounding it
loses a unit, and the last flow never has enough. -/
theorem large_sum_deadlocks :
    (∀ f ∈ fanOut 2 (2 ^ 53 - 1) 2, 0 < f.flow ∧ f.flow < 2 ^ 53) ∧
    Covered (fanOut 2 (2 ^ 53 - 1) 2) (fanOutSupplies 2 (2 ^ 53 - 1)) ∧
    (∀ v, ¬ Relation.TransGen (UsesEdge (fanOut 2 (2 ^ 53 - 1) 2)) v v) ∧
    computePartialOrder (fanOut 2 (2 ^ 53 - 1) 2) (fanOutSupplies 2 (2 ^ 53 - 1)) =
      .error ("Scheduling deadlock: no flows can be executed. Remaining:\n" ++
        "2: e2 @noble(1) -> @Optimism needs 2") := by
  refine ⟨by decide +kernel, covered_of_sources (by decide +kernel), fanOut_acyclic _ _ _, ?_⟩
  decide +kernel

end Plans

end AgoricSdk.Portfolio
