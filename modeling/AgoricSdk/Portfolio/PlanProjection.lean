import AgoricSdk.Lib.Throwing
import AgoricSdk.Portfolio.DelegationLimits

/-!
What the steps of a plan do to the balances. A decoded plan does the same as the plan
it was decoded from, and the projection of a plan runs each of its steps once, each
after those it depends on, so that it ends with the balances after all steps.
-/

namespace AgoricSdk.Portfolio

section Decoding

/-- What a completed step adds to the balance of a place. -/
def stepDelta (place : PlaceRef) (step : MovementDesc) : Int :=
  if step.claimRewards then 0
  else
    (if step.dest = place then (step.amount : Int) else 0) -
      if step.src = place then (step.amount : Int) else 0

/-- The balance of a place after these steps, starting from the observed ones. -/
def balanceAfter (plan : FundsFlowPlan) (observations : PlanObservations)
    (completed : Finset Nat) (place : PlaceRef) : Int :=
  (observations.balances.get place).getD 0 +
    ∑ ix ∈ completed, (plan.flow[ix]?.map (stepDelta place)).getD 0

/-- A move is between two places. -/
def MovesApart (flow : List PlanOperation) : Prop :=
  ∀ src dest amount, PlanOperation.move src dest amount ∈ flow → src ≠ dest

theorem insist_eq_ok {p : Prop} [Decidable p] {message : String} :
    insist p message = .ok () ↔ p := by
  unfold insist
  split
  case isTrue h => exact ⟨fun _ => h, fun _ => rfl⟩
  case isFalse h => exact ⟨nofun, fun hp => absurd hp h⟩

theorem decodeMovement_ok {step : MovementDesc} {operation : PlanOperation}
    (h : decodeMovement step = .ok operation) :
    step.src ≠ step.dest ∧ (step.claimRewards = false ∧
        operation = .move step.src step.dest step.amount ∨
      step.claimRewards = true ∧ operation = .claimRewards step.src step.dest) := by
  unfold decodeMovement at h
  obtain ⟨-, -, h⟩ := bind_eq_ok.mp h
  obtain ⟨-, -, h⟩ := bind_eq_ok.mp h
  obtain ⟨⟨⟩, hapart, h⟩ := bind_eq_ok.mp h
  refine ⟨insist_eq_ok.mp hapart, ?_⟩
  cases hclaim : step.claimRewards with
  | false =>
    rw [hclaim] at h
    cases h
    exact .inl ⟨rfl, rfl⟩
  | true =>
    rw [hclaim] at h
    obtain ⟨-, -, h⟩ := bind_eq_ok.mp h
    obtain ⟨chain, -, h⟩ := bind_eq_ok.mp h
    obtain ⟨-, -, h⟩ := bind_eq_ok.mp h
    cases h
    exact .inr ⟨rfl, rfl⟩

theorem stepDelta_of_decoded {step : MovementDesc} {operation : PlanOperation}
    (h : decodeMovement step = .ok operation) (place : PlaceRef) :
    stepDelta place step = operationDelta place operation := by
  obtain ⟨hapart, ⟨hclaim, rfl⟩ | ⟨hclaim, rfl⟩⟩ := decodeMovement_ok h
  · unfold stepDelta operationDelta
    rw [hclaim]
    by_cases hdest : step.dest = place
    · have hsrc : step.src ≠ place := fun heq => hapart (heq.trans hdest.symm)
      simp [hdest, hsrc]
    · by_cases hsrc : step.src = place <;> simp [hdest, hsrc]
  · unfold stepDelta operationDelta
    rw [hclaim]
    rfl

variable {plan : FundsFlowPlan} {decoded : DecodedPlan}

theorem decodePlan_ok (h : decodePlan plan = .ok decoded) :
    plan.flow.mapM decodeMovement = .ok decoded.flow ∧ decoded.order = plan.order := by
  unfold decodePlan at h
  obtain ⟨-, -, h⟩ := bind_eq_ok.mp h
  obtain ⟨flow, hflow, h⟩ := bind_eq_ok.mp h
  cases h
  exact ⟨hflow, rfl⟩

theorem length_decoded (h : decodePlan plan = .ok decoded) :
    decoded.flow.length = plan.flow.length := by
  have hunits := map_eq_of_mapM_ok (g := fun _ => ()) (fun _ _ _ => rfl) (decodePlan_ok h).1
  have hlength := congrArg List.length hunits
  rw [List.length_map, List.length_map] at hlength
  exact hlength.symm

theorem movesApart_decoded (h : decodePlan plan = .ok decoded) : MovesApart decoded.flow := by
  intro src dest amount hmem
  obtain ⟨step, -, hstep⟩ := (mapM_ok_spec (decodePlan_ok h).1).1 _ hmem
  obtain ⟨hapart, ⟨-, hmove⟩ | ⟨-, hmove⟩⟩ := decodeMovement_ok hstep
  · cases hmove
    exact hapart
  · cases hmove

theorem delta_decoded (h : decodePlan plan = .ok decoded) (place : PlaceRef) (ix : Nat) :
    (plan.flow[ix]?.map (stepDelta place)).getD 0 =
      (decoded.flow[ix]?.map (operationDelta place)).getD 0 := by
  have hdeltas := map_eq_of_mapM_ok
    (fun step operation hstep => stepDelta_of_decoded hstep place) (decodePlan_ok h).1
  rw [← List.getElem?_map, ← List.getElem?_map, hdeltas]

end Decoding

section Projection

variable {flow : List PlanOperation} {order : Dependencies}

/-- What the step adds to the place. -/
def deltaAt (flow : List PlanOperation) (place : PlaceRef) (ix : Nat) : Int :=
  (flow[ix]?.map (operationDelta place)).getD 0

theorem balanceAt_set (balances : Balances) (k place : PlaceRef) (a : Int) :
    balanceAt (Record.set balances k a) place = if place = k then a else balanceAt balances place := by
  unfold balanceAt
  rw [Record.get_set]
  split <;> rfl

theorem sum_values_set (balances : Balances) (k : PlaceRef) (a : Int) :
    (Record.set balances k a).values.sum = balances.values.sum + (a - balanceAt balances k) :=
  Record.sum_values_set balances k a

theorem applyOperation_spec (balances : Balances) (operation : PlanOperation)
    (hapart : ∀ src dest amount, operation = .move src dest amount → src ≠ dest) :
    (∀ place, balanceAt (applyOperation balances operation) place =
        balanceAt balances place + operationDelta place operation) ∧
      (applyOperation balances operation).values.sum = balances.values.sum := by
  cases operation with
  | claimRewards src dest =>
    refine ⟨fun place => ?_, rfl⟩
    show balanceAt balances place = balanceAt balances place + 0
    omega
  | move src dest amount =>
    have hne : src ≠ dest := hapart src dest amount rfl
    unfold applyOperation operationDelta
    constructor
    · intro place
      dsimp only
      rw [balanceAt_set, balanceAt_set, balanceAt_set, if_neg hne.symm]
      by_cases hdest : dest = place
      · subst hdest
        rw [if_pos rfl, if_pos rfl]
      · rw [if_neg (Ne.symm hdest), if_neg hdest]
        by_cases hsrc : src = place
        · subst hsrc
          rw [if_pos rfl, if_pos rfl]
          omega
        · rw [if_neg (Ne.symm hsrc), if_neg hsrc]
          omega
    · dsimp only
      rw [sum_values_set, sum_values_set]
      omega

theorem foldl_applyOperation {operations : List PlanOperation} (hapart : MovesApart operations)
    (balances : Balances) :
    (∀ place, balanceAt (operations.foldl applyOperation balances) place =
        balanceAt balances place + (operations.map (operationDelta place)).sum) ∧
      (operations.foldl applyOperation balances).values.sum = balances.values.sum := by
  induction operations generalizing balances with
  | nil =>
    refine ⟨fun place => ?_, rfl⟩
    rw [List.map_nil, List.sum_nil, add_zero]
    rfl
  | cons operation operations ih =>
    obtain ⟨hfirst, htotal⟩ := applyOperation_spec balances operation <| by
      intro src dest amount heq
      exact hapart src dest amount (heq ▸ List.mem_cons_self)
    obtain ⟨hrest, htotal'⟩ := ih
      (fun src dest amount hmem => hapart src dest amount (List.mem_cons_of_mem _ hmem))
      (applyOperation balances operation)
    rw [List.foldl_cons]
    refine ⟨fun place => ?_, htotal'.trans htotal⟩
    rw [hrest, hfirst, List.map_cons, List.sum_cons, add_assoc]

theorem sum_operationsAt (flow : List PlanOperation) (place : PlaceRef) (steps : List Nat) :
    ((operationsAt flow steps).map (operationDelta place)).sum =
      (steps.map (deltaAt flow place)).sum := by
  unfold operationsAt
  induction steps with
  | nil => rfl
  | cons ix steps ih =>
    rw [List.filterMap_cons, List.map_cons, List.sum_cons, ← ih, deltaAt]
    cases flow[ix]? with
    | none =>
      show _ = 0 + _
      rw [zero_add]
    | some operation => rfl

theorem Tracks.foldl_complete {completed : List Nat} {s : Schedule}
    (h : Tracks order completed s) (steps : List Nat) :
    Tracks order (steps.reverse ++ completed) (steps.foldl (fun s ix => s.complete ix) s) ∧
      (steps.foldl (fun s ix => s.complete ix) s).todo = s.todo := by
  induction steps generalizing completed s with
  | nil => exact ⟨h, rfl⟩
  | cons ix steps ih =>
    obtain ⟨htracks, htodo⟩ := ih (h.complete ix)
    rw [List.foldl_cons, List.reverse_cons, List.append_assoc]
    exact ⟨htracks, htodo⟩

/-- A projection that has run some of the steps: the rest is still to do. -/
structure Projecting (flow : List PlanOperation) (order : Dependencies) (initial : Balances)
    (done : List Nat) (schedule : Schedule) (balances : Balances) : Prop where
  tracks : Tracks order done schedule
  nodup : schedule.todo.Nodup
  todo : ∀ ix, ix ∈ schedule.todo ↔ ix < flow.length ∧ ix ∉ done
  within : ∀ ix ∈ done, ix < flow.length
  balance : ∀ place, balanceAt balances place =
    balanceAt initial place + ∑ ix ∈ done.toFinset, deltaAt flow place ix
  total : balances.values.sum = initial.values.sum

variable {initial balances : Balances} {done : List Nat} {schedule : Schedule}

theorem Projecting.round (h : Projecting flow order initial done schedule balances)
    (hapart : MovesApart flow) :
    Projecting flow order initial (schedule.ready.1.reverse ++ done)
      (schedule.ready.1.foldl (fun s ix => s.complete ix) schedule.ready.2)
      ((operationsAt flow schedule.ready.1).foldl applyOperation balances) := by
  obtain ⟨hready, htodo, htracks⟩ := h.tracks.ready
  obtain ⟨htracks', hsame⟩ := htracks.foldl_complete schedule.ready.1
  have hmem : ∀ ix, ix ∈ schedule.ready.1.reverse ++ done ↔ ix ∈ schedule.ready.1 ∨ ix ∈ done := by
    intro ix
    rw [List.mem_append, List.mem_reverse]
  have hapart' : MovesApart (operationsAt flow schedule.ready.1) := by
    intro src dest amount hmove
    obtain ⟨ix, -, hix⟩ := List.mem_filterMap.mp hmove
    exact hapart src dest amount (List.mem_of_getElem? hix)
  obtain ⟨hbalance, htotal⟩ := foldl_applyOperation hapart' balances
  constructor
  case tracks => exact htracks'
  case nodup =>
    rw [hsame]
    exact h.nodup.filter _
  case todo =>
    intro ix
    rw [hsame, htodo, hmem, hready, h.todo]
    constructor
    · rintro ⟨⟨hlt, hnot⟩, j, hj, hout⟩
      refine ⟨hlt, ?_⟩
      rintro (⟨-, hall⟩ | hdone)
      · exact hout (hall j hj)
      · exact hnot hdone
    · rintro ⟨hlt, hnot⟩
      rw [not_or, not_and] at hnot
      refine ⟨⟨hlt, hnot.2⟩, ?_⟩
      simpa only [not_forall, exists_prop] using hnot.1 ⟨hlt, hnot.2⟩
  case within =>
    intro ix hix
    rcases (hmem ix).mp hix with hix | hix
    · exact ((h.todo ix).mp ((hready ix).mp hix).1).1
    · exact h.within ix hix
  case balance =>
    intro place
    have hdisjoint : Disjoint schedule.ready.1.toFinset done.toFinset := by
      rw [Finset.disjoint_left]
      intro ix hix hdone
      have htask := ((hready ix).mp (List.mem_toFinset.mp hix)).1
      exact ((h.todo ix).mp htask).2 (List.mem_toFinset.mp hdone)
    have hsum : ∑ ix ∈ schedule.ready.1.toFinset, deltaAt flow place ix =
        (schedule.ready.1.map (deltaAt flow place)).sum :=
      List.sum_toFinset _ (h.nodup.filter _)
    rw [hbalance, h.balance, sum_operationsAt, List.toFinset_append, List.toFinset_reverse,
      Finset.sum_union hdisjoint, hsum]
    omega
  case total => rw [htotal, h.total]

theorem Projecting.progress (h : Projecting flow order initial done schedule balances)
    (hcompletable : Completable (Requires order) (Finset.range flow.length))
    (hpending : schedule.pending = true) :
    schedule.ready.2.todo.length < schedule.todo.length := by
  obtain ⟨task, htask⟩ : ∃ task, task ∈ schedule.todo := by
    apply List.exists_mem_of_ne_nil
    intro hnone
    rw [Schedule.pending, hnone] at hpending
    cases hpending
  obtain ⟨hlt, hnot⟩ := (h.todo task).mp htask
  obtain ⟨ix, hix, hout, hrequires⟩ : ∃ ix ∈ Finset.range flow.length, ix ∉ done.toFinset ∧
      ∀ j, Requires order ix j → j ∈ done.toFinset := by
    apply hcompletable.exists_ready
    intro hsub
    exact hnot (List.mem_toFinset.mp (hsub (Finset.mem_range.mpr hlt)))
  simp only [List.mem_toFinset, Finset.mem_range] at hix hout hrequires
  apply List.length_filter_lt_length_iff_exists.mpr
  refine ⟨ix, (h.todo ix).mpr ⟨hix, hout⟩, ?_⟩
  rw [h.tracks.has_iff]
  rintro ⟨j, hj, hmissing⟩
  exact hmissing (hrequires j hj)

theorem Projecting.finished (h : Projecting flow order initial done schedule balances)
    (hnone : schedule.todo = []) :
    (∀ place, balanceAt balances place =
        balanceAt initial place + ∑ ix ∈ Finset.range flow.length, deltaAt flow place ix) ∧
      balances.values.sum = initial.values.sum := by
  have hall : done.toFinset = Finset.range flow.length := by
    ext ix
    rw [List.mem_toFinset, Finset.mem_range]
    refine ⟨h.within ix, fun hlt => ?_⟩
    by_contra hnot
    have htask := (h.todo ix).mpr ⟨hlt, hnot⟩
    rw [hnone] at htask
    cases htask
  rw [← hall]
  exact ⟨h.balance, h.total⟩

theorem projectRounds_spec (hapart : MovesApart flow)
    (hcompletable : Completable (Requires order) (Finset.range flow.length)) {rounds : Nat}
    {final : Balances} (h : Projecting flow order initial done schedule balances)
    (hrounds : schedule.todo.length ≤ rounds)
    (hrun : projectRounds flow rounds schedule balances = .ok final) :
    (∀ place, balanceAt final place =
        balanceAt initial place + ∑ ix ∈ Finset.range flow.length, deltaAt flow place ix) ∧
      final.values.sum = initial.values.sum := by
  induction rounds generalizing done schedule balances with
  | zero =>
    cases hrun
    exact h.finished (List.eq_nil_of_length_eq_zero (Nat.le_zero.mp hrounds))
  | succ rounds ih =>
    unfold projectRounds at hrun
    split at hrun
    case isTrue hpending =>
      cases hrun
      apply h.finished
      simpa [Schedule.pending] using hpending
    case isFalse hpending =>
      obtain ⟨-, -, hrun⟩ := bind_eq_ok.mp hrun
      have hless := h.progress hcompletable (by simpa using hpending)
      have hsame := (h.tracks.ready.2.2.foldl_complete schedule.ready.1).2
      apply ih (h.round hapart) _ hrun
      rw [hsame]
      omega

/-- A plan that is projected has an order without a cycle, and the projection ends with
the balances after all steps. -/
theorem projectPlanBalances_ok {plan : DecodedPlan} {observations : PlanObservations}
    {final : Balances} (hapart : MovesApart plan.flow)
    (h : projectPlanBalances plan observations = .ok final) :
    (∀ place, balanceAt final place = ((observations.balances.get place).getD 0 : Nat) +
        ∑ ix ∈ Finset.range plan.flow.length, deltaAt plan.flow place ix) ∧
      final.values.sum = (observations.balances.values.sum : Nat) := by
  unfold projectPlanBalances at h
  obtain ⟨schedule, hschedule, h⟩ := bind_eq_ok.mp h
  obtain ⟨-, -, h⟩ := bind_eq_ok.mp h
  unfold makeSchedule at hschedule
  obtain ⟨order, hmake, hschedule⟩ := bind_eq_ok.mp hschedule
  cases hschedule
  obtain ⟨hnormalized, hcompletable⟩ := makeDependencies_ok hmake
  let initial : Balances := observations.balances.map fun (balance : Nat) => (balance : Int)
  have hstart : Projecting plan.flow order initial []
      { todo := List.range plan.flow.length, dependencies := order } initial := by
    constructor
    case tracks => exact tracks_start hnormalized _
    case nodup => exact List.nodup_range
    case todo => simp
    case within => exact nofun
    case balance => simp
    case total => rfl
  obtain ⟨hbalance, htotal⟩ := projectRounds_spec hapart hcompletable hstart (by simp) h
  have hinitial : ∀ place, balanceAt initial place =
      ((observations.balances.get place).getD 0 : Nat) := by
    intro place
    unfold balanceAt initial
    rw [Record.get_map]
    cases observations.balances.get place <;> rfl
  constructor
  · intro place
    rw [hbalance, hinitial]
  · rw [htotal, Record.values_map]
    exact (Nat.cast_list_sum _).symm

end Projection

end AgoricSdk.Portfolio
