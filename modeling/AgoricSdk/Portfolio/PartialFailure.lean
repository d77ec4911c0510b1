import AgoricSdk.Portfolio.PlanProjection

/-!
Partial failure of delegated plans. Whatever steps of an accepted plan fail or are
skipped, no instrument ends above both its initial balance and its share of the target
allocation; when all steps complete, a chain has 1 USDC above its shares at most. The
largest weight of a closure is what an instrument could gain, so that no other plan is
refused for what it could leave behind.
-/

namespace AgoricSdk.Portfolio

section Bounds

variable {target : TargetAllocation} {plan : FundsFlowPlan} {observations : PlanObservations}

def planJob (plan : FundsFlowPlan) : Job where
  taskQty := plan.flow.length
  order := planOrder plan.flow.length plan.order

/-- The share of a place in the total; none where the portions have no total. -/
def targetShare (target : TargetAllocation) (observations : PlanObservations)
    (place : PlaceRef) : ℚ :=
  (observations.balances.values.sum * (target.get place).getD 0 : ℚ) / sumPortions target

def initialBalance (observations : PlanObservations) (place : PlaceRef) : Nat :=
  (observations.balances.get place).getD 0

/-- Whatever an execution of the plan has completed, no instrument is above both its
initial balance and its target share. -/
def BoundedByTarget (target : TargetAllocation) (plan : FundsFlowPlan)
    (observations : PlanObservations) : Prop :=
  ∀ s, (runJob (planJob plan)).Reachable TransitionSystem.anyStep s →
    ∀ place, isInstrumentId place →
      (balanceAfter plan observations s.completed.toFinset place : ℚ) ≤
        max (initialBalance observations place : ℚ) (targetShare target observations place)

/-- Once all steps have completed, the total of what the instruments on a chain have above
their target shares is 1 USDC at most. -/
def BoundedDivergence (target : TargetAllocation) (plan : FundsFlowPlan)
    (observations : PlanObservations) : Prop :=
  ∀ s, (runJob (planJob plan)).Reachable TransitionSystem.anyStep s →
    (∀ ix < plan.flow.length, ix ∈ s.completed) →
    ∀ (chain : String) (places : Finset PlaceRef),
      (∀ place ∈ places, isInstrumentId place ∧ chainOf place = .ok chain) →
      ∑ place ∈ places, max 0
        ((balanceAfter plan observations s.completed.toFinset place : ℚ) -
          targetShare target observations place) ≤ 1000000

/-- The exact comparison, cross-multiplied. -/
def WithinCeiling (target : TargetAllocation) (observations : PlanObservations)
    (place : PlaceRef) (balance : Int) : Prop :=
  (0 < (sumPortions target : Int) ∧ balance * sumPortions target ≤
      (observations.balances.values.sum : Int) * ((target.get place).getD 0 : Nat)) ∨
    balance ≤ initialBalance observations place

theorem withinCeiling_iff {place : PlaceRef} {balance : Int} :
    WithinCeiling target observations place balance ↔ (balance : ℚ) ≤
      max (initialBalance observations place : ℚ) (targetShare target observations place) := by
  have hinitial : balance ≤ initialBalance observations place ↔
      (balance : ℚ) ≤ (initialBalance observations place : ℚ) := by
    exact_mod_cast Iff.rfl
  unfold WithinCeiling
  rw [le_max_iff, hinitial, or_comm]
  rcases Nat.eq_zero_or_pos (sumPortions target) with hzero | hpositive
  · have hshare : targetShare target observations place = 0 := by
      unfold targetShare
      rw [hzero, Nat.cast_zero, div_zero]
    rw [hzero, hshare]
    constructor
    · rintro (hle | ⟨hlt, -⟩)
      · exact .inl hle
      · exact absurd hlt (lt_irrefl 0)
    · rintro (hle | hle)
      · exact .inl hle
      · exact .inl (hle.trans (Nat.cast_nonneg _))
  · have hdiv : (balance : ℚ) ≤ targetShare target observations place ↔
        balance * sumPortions target ≤
          (observations.balances.values.sum : Int) * ((target.get place).getD 0 : Nat) := by
      unfold targetShare
      generalize observations.balances.values.sum = total
      rw [le_div_iff₀ (Nat.cast_pos.mpr hpositive), ← Int.cast_le (R := ℚ)]
      push_cast
      rfl
    rw [hdiv, and_iff_right (Int.natCast_pos.mpr hpositive)]

end Bounds

section Closures

variable {target : TargetAllocation} {plan : DecodedPlan} {observations : PlanObservations}
  {order : Dependencies}

/-- A set of steps that includes what its steps require. -/
structure ClosedSteps (length : Nat) (order : Dependencies) (C : Finset Nat) : Prop where
  within : ∀ i ∈ C, i < length
  closed : ∀ i ∈ C, ∀ j, Requires order i j → j ∈ C

theorem vetInstrument_spec (target : TargetAllocation) (observations : PlanObservations)
    (hwithin : ∀ i j, Requires order i j → j < plan.flow.length)
    (place : PlaceRef) :
    ∃ m, (∃ C, ClosedSteps plan.flow.length order C ∧
        m = ∑ ix ∈ C, deltaAt plan.flow place ix) ∧
      (∀ C, ClosedSteps plan.flow.length order C → ∑ ix ∈ C, deltaAt plan.flow place ix ≤ m) ∧
      (vetInstrument target plan observations order place = .ok () ↔
        WithinCeiling target observations place (initialBalance observations place + m)) := by
  let dependenciesOf (index : Nat) : List Nat := (order.get index).getD []
  have hdependencies : ∀ i ∈ List.range plan.flow.length, ∀ j ∈ dependenciesOf i,
      j ∈ List.range plan.flow.length :=
    fun i _ j hj => List.mem_range.mpr (hwithin i j hj)
  obtain ⟨m, hrun, ⟨C, hC, hm⟩, hmax⟩ :=
    maxWeightClosure_spec (deltaAt plan.flow place) List.nodup_range hdependencies
  refine ⟨m, ⟨C, ⟨fun i hi => List.mem_range.mp (hC.subset i hi), hC.closed⟩, hm⟩, ?_, ?_⟩
  · intro D hD
    exact hmax D ⟨fun i hi => List.mem_range.mpr (hD.within i hi), hD.closed⟩
  · unfold vetInstrument WithinCeiling
    rw [bind_eq_ok]
    constructor
    · rintro ⟨m', hrun', hinsist⟩
      have heq : m' = m := Except.ok.inj (hrun'.symm.trans hrun)
      subst heq
      exact insist_eq_ok.mp hinsist
    · intro hceiling
      exact ⟨m, hrun, insist_eq_ok.mpr hceiling⟩

theorem WithinCeiling.mono {place : PlaceRef} {balance balance' : Int}
    (h : WithinCeiling target observations place balance) (hle : balance' ≤ balance) :
    WithinCeiling target observations place balance' := by
  rcases h with ⟨hpositive, hceiling⟩ | hinitial
  · refine .inl ⟨hpositive, le_trans ?_ hceiling⟩
    exact Int.mul_le_mul_of_nonneg_right hle hpositive.le
  · exact .inr (hle.trans hinitial)

theorem deltaAt_eq_zero {flow : List PlanOperation} {place : PlaceRef}
    (h : place ∉ flow.flatMap PlanOperation.places) (ix : Nat) : deltaAt flow place ix = 0 := by
  unfold deltaAt
  cases hix : flow[ix]? with
  | none => rfl
  | some operation =>
    have hout : place ∉ operation.places := fun hmem =>
      h (List.mem_flatMap.mpr ⟨operation, List.mem_of_getElem? hix, hmem⟩)
    cases operation with
    | claimRewards src dest => rfl
    | move src dest amount =>
      unfold PlanOperation.places at hout
      rw [List.mem_cons, List.mem_singleton, not_or] at hout
      show (if dest = place then (amount : Int) else if src = place then -amount else 0) = 0
      rw [if_neg (Ne.symm hout.2), if_neg (Ne.symm hout.1)]

theorem vetPartialPlanAllocation_ok
    (h : vetPartialPlanAllocation target plan observations = .ok ()) :
    ∃ order, makeDependencies plan.flow.length (planOrder plan.flow.length plan.order) = .ok order ∧
      ∀ C, ClosedSteps plan.flow.length order C → ∀ place, isInstrumentId place →
        WithinCeiling target observations place
          (initialBalance observations place + ∑ ix ∈ C, deltaAt plan.flow place ix) := by
  unfold vetPartialPlanAllocation at h
  obtain ⟨order, hmake, hall⟩ := bind_eq_ok.mp h
  refine ⟨order, hmake, ?_⟩
  intro C hC place hplace
  have hwithin : ∀ i j, Requires order i j → j < plan.flow.length := fun i j hij =>
    ((makeDependencies_ok hmake).1.within i j hij).2
  by_cases hmoved : place ∈ plan.flow.flatMap PlanOperation.places
  · obtain ⟨m, -, hmax, hiff⟩ := vetInstrument_spec target observations hwithin place
    have hvetted : vetInstrument target plan observations order place = .ok () := by
      apply forM_eq_ok.mp hall
      rw [List.mem_eraseDups, List.mem_filter]
      exact ⟨List.mem_append_right _ hmoved, hplace⟩
    have hle := hmax C hC
    exact (hiff.mp hvetted).mono (by omega)
  · have hzero : ∑ ix ∈ C, deltaAt plan.flow place ix = 0 :=
      Finset.sum_eq_zero fun ix _ => deltaAt_eq_zero hmoved ix
    rw [hzero, add_zero]
    exact .inr le_rfl

theorem vetPartialPlanAllocation_error {message : String}
    (hmake : makeDependencies plan.flow.length (planOrder plan.flow.length plan.order) = .ok order)
    (h : vetPartialPlanAllocation target plan observations = .error message) :
    ∃ C, ClosedSteps plan.flow.length order C ∧ ∃ place, isInstrumentId place ∧
      ¬ WithinCeiling target observations place
        (initialBalance observations place + ∑ ix ∈ C, deltaAt plan.flow place ix) := by
  unfold vetPartialPlanAllocation at h
  rw [hmake] at h
  obtain ⟨place, hmem, herror⟩ := exists_error_of_forM h
  have hplace := (List.mem_filter.mp (List.mem_eraseDups.mp hmem)).2
  have hwithin : ∀ i j, Requires order i j → j < plan.flow.length := fun i j hij =>
    ((makeDependencies_ok hmake).1.within i j hij).2
  obtain ⟨m, ⟨C, hC, hm⟩, -, hiff⟩ := vetInstrument_spec target observations
    hwithin place
  refine ⟨C, hC, place, by simpa using hplace, ?_⟩
  rw [← hm, ← hiff, herror]
  exact nofun

end Closures

section Divergence

variable {target : TargetAllocation} {totalBalance : Int}

/-- What an instrument on the chain has above its share, scaled by the portions. -/
def scaledExcess (totalBalance : Int) (target : TargetAllocation) (chain : String)
    (place : PlaceRef) (balance : Int) : Int :=
  if isInstrumentId place ∧ chainOf place = .ok chain then
    max 0 (balance * sumPortions target - totalBalance * ((target.get place).getD 0 : Nat))
  else 0

theorem scaledExcess_zero (htotal : 0 ≤ totalBalance) (chain : String) (place : PlaceRef) :
    scaledExcess totalBalance target chain place 0 = 0 := by
  have hshare : 0 ≤ totalBalance * ((target.get place).getD 0 : Nat) :=
    Int.mul_nonneg htotal (Int.natCast_nonneg _)
  unfold scaledExcess
  rw [zero_mul, zero_sub]
  split
  · omega
  · rfl

/-- The excess by chain is that of the entries seen, and never above the budget. -/
structure ExcessKept (totalBalance : Int) (target : TargetAllocation)
    (seen : List (PlaceRef × Int)) (excessByChain : ExcessByChain) : Prop where
  excess : ∀ chain, (excessByChain.get chain).getD 0 =
    (seen.map fun e => scaledExcess totalBalance target chain e.1 e.2).sum
  budget : ∀ chain, (excessByChain.get chain).getD 0 ≤
    maxChainAllocationDivergenceUusdc * sumPortions target
  portions : ∀ e ∈ seen, isInstrumentId e.1 → e.2 ≠ 0 → 0 < sumPortions target

variable {seen : List (PlaceRef × Int)} {excessByChain excessByChain' : ExcessByChain}

theorem ExcessKept.same (h : ExcessKept totalBalance target seen excessByChain)
    {entry : PlaceRef × Int}
    (hnone : ∀ chain, scaledExcess totalBalance target chain entry.1 entry.2 = 0)
    (hportions : isInstrumentId entry.1 → entry.2 ≠ 0 → 0 < sumPortions target) :
    ExcessKept totalBalance target (seen ++ [entry]) excessByChain where
  excess chain := by
    rw [List.map_append, List.sum_append, List.map_singleton, List.sum_singleton, hnone, add_zero]
    exact h.excess chain
  budget := h.budget
  portions e he := by
    rcases List.mem_append.mp he with he | he
    · exact h.portions e he
    · rw [List.mem_singleton.mp he]
      exact hportions

theorem ExcessKept.add (htotal : 0 ≤ totalBalance)
    (h : ExcessKept totalBalance target seen excessByChain) {entry : PlaceRef × Int}
    (hrun : addExcess totalBalance target excessByChain entry = .ok excessByChain') :
    ExcessKept totalBalance target (seen ++ [entry]) excessByChain' := by
  obtain ⟨place, balance⟩ := entry
  unfold addExcess at hrun
  dsimp only at hrun
  split at hrun
  case isTrue hskip =>
    cases hrun
    apply h.same
    · intro chain
      rcases hskip with hnot | hzero
      · exact if_neg fun hplace => hnot hplace.1
      · rw [hzero]
        exact scaledExcess_zero htotal chain place
    · intro hplace hbalance
      rcases hskip with hnot | hzero
      · exact absurd hplace hnot
      · exact absurd hzero hbalance
  case isFalse hinstrument =>
    obtain ⟨⟨⟩, hportions, hrun⟩ := bind_eq_ok.mp hrun
    rw [insist_eq_ok] at hportions
    split at hrun
    case isTrue hdeficit =>
      cases hrun
      apply h.same
      · intro chain
        unfold scaledExcess
        split
        · exact max_eq_left hdeficit
        · rfl
      · exact fun _ _ => hportions
    case isFalse hexcess =>
      obtain ⟨chain, hchain, hrun⟩ := bind_eq_ok.mp hrun
      obtain ⟨⟨⟩, hbudget, hrun⟩ := bind_eq_ok.mp hrun
      rw [insist_eq_ok] at hbudget
      cases hrun
      constructor
      case excess =>
        intro chain'
        have hplace : isInstrumentId place = true := by
          by_contra hnot
          exact hinstrument (.inl (by simpa using hnot))
        rw [List.map_append, List.sum_append, List.map_singleton, List.sum_singleton,
          Record.get_set, ← h.excess chain']
        unfold scaledExcess
        by_cases heq : chain' = chain
        · rw [if_pos heq, if_pos ⟨hplace, heq ▸ hchain⟩, max_eq_right (not_le.mp hexcess).le, heq]
          rfl
        · have hother : ¬ (isInstrumentId place ∧ chainOf place = .ok chain') := by
            rintro ⟨-, hchain'⟩
            exact heq (Except.ok.inj (hchain'.symm.trans hchain))
          rw [if_neg heq, if_neg hother, add_zero]
      case budget =>
        intro chain'
        rw [Record.get_set]
        split
        · exact hbudget
        · exact h.budget chain'
      case portions =>
        intro e he
        rcases List.mem_append.mp he with he | he
        · exact h.portions e he
        · exact fun _ _ => hportions

theorem vetAllocationCeilings_ok {balances : Balances} (htotal : 0 ≤ balances.values.sum)
    (h : vetAllocationCeilings balances target = .ok ()) :
    (∀ place, isInstrumentId place → balanceAt balances place ≠ 0 → 0 < sumPortions target) ∧
      ∀ (chain : String) (places : Finset PlaceRef),
        ∑ place ∈ places, scaledExcess balances.values.sum target chain place
            (balanceAt balances place) ≤
          maxChainAllocationDivergenceUusdc * sumPortions target := by
  unfold vetAllocationCeilings at h
  obtain ⟨excessByChain, hfold, -⟩ := bind_eq_ok.mp h
  have hempty : ExcessKept balances.values.sum target [] ∅ := by
    refine ⟨fun _ => rfl, fun _ => ?_, nofun⟩
    exact Int.mul_nonneg (by decide) (Int.natCast_nonneg _)
  have hkept : ExcessKept balances.values.sum target balances.entries excessByChain := by
    apply foldlM_invariant (P := ExcessKept balances.values.sum target) _ hempty hfold
    exact fun _ _ _ _ _ hseen hrun => hseen.add htotal hrun
  constructor
  · intro place hplace hbalance
    cases hget : balances.get place with
    | none =>
      unfold balanceAt at hbalance
      rw [hget] at hbalance
      exact absurd rfl hbalance
    | some balance =>
      unfold balanceAt at hbalance
      rw [hget] at hbalance
      exact hkept.portions _ (Record.get_eq_some_iff.mp hget) hplace hbalance
  · intro chain places
    let all := places ∪ balances.keys.toFinset
    have hkeys : ∀ k ∈ balances.keys, k ∈ all := fun k hk =>
      Finset.mem_union_right _ (List.mem_toFinset.mpr hk)
    have hnonneg : ∀ place balance,
        0 ≤ scaledExcess balances.values.sum target chain place balance := by
      intro place balance
      unfold scaledExcess
      split
      · exact le_max_left _ _
      · exact le_rfl
    calc ∑ place ∈ places, scaledExcess balances.values.sum target chain place
            (balanceAt balances place)
        ≤ ∑ place ∈ all, scaledExcess balances.values.sum target chain place
            (balanceAt balances place) :=
          Finset.sum_le_sum_of_subset_of_nonneg Finset.subset_union_left fun _ _ _ => hnonneg _ _
      _ = ∑ place ∈ all, (balances.get place).elim 0
            (scaledExcess balances.values.sum target chain place) := by
          apply Finset.sum_congr rfl
          intro place _
          unfold balanceAt
          cases balances.get place with
          | none => exact scaledExcess_zero htotal chain place
          | some balance => rfl
      _ = (excessByChain.get chain).getD 0 := by
          rw [hkept.excess, Record.sum_entries _ _ hkeys]
      _ ≤ maxChainAllocationDivergenceUusdc * sumPortions target := hkept.budget chain

end Divergence

section Safety

variable {target : TargetAllocation} {plan : FundsFlowPlan} {decoded : DecodedPlan}
  {observations : PlanObservations}

theorem balanceAfter_eq (h : decodePlan plan = .ok decoded) (completed : Finset Nat)
    (place : PlaceRef) :
    balanceAfter plan observations completed place = initialBalance observations place +
      ∑ ix ∈ completed, deltaAt decoded.flow place ix := by
  unfold balanceAfter initialBalance
  have hsum := Finset.sum_congr (rfl : completed = completed)
    fun ix _ => delta_decoded h place ix
  rw [hsum]
  rfl

theorem makeDependencies_decoded (h : decodePlan plan = .ok decoded) :
    makeDependencies decoded.flow.length (planOrder decoded.flow.length decoded.order) =
      makeDependencies (planJob plan).taskQty (planJob plan).order := by
  rw [length_decoded h, (decodePlan_ok h).2]
  rfl

theorem closedSteps_of_reachable {order : Dependencies} {s : JobState}
    (hmake : makeDependencies (planJob plan).taskQty (planJob plan).order = .ok order)
    (hs : (runJob (planJob plan)).Reachable TransitionSystem.anyStep s) :
    ClosedSteps plan.flow.length order s.completed.toFinset := by
  obtain ⟨hcompletable, hwithin⟩ := completable_of_reachable hmake hs
  constructor
  · exact fun i hi => hwithin i (List.mem_toFinset.mp hi)
  · exact fun i hi j hj => hcompletable.closed hi hj

theorem boundedByTarget_of_vetted (hdecode : decodePlan plan = .ok decoded)
    (h : vetPartialPlanAllocation target decoded observations = .ok ()) :
    BoundedByTarget target plan observations := by
  obtain ⟨order, hmake, hceiling⟩ := vetPartialPlanAllocation_ok h
  rw [makeDependencies_decoded hdecode] at hmake
  rw [length_decoded hdecode] at hceiling
  intro s hs place hplace
  rw [← withinCeiling_iff, balanceAfter_eq hdecode]
  exact hceiling _ (closedSteps_of_reachable hmake hs) place hplace

theorem not_boundedByTarget_of_refused {message : String}
    (horder : ∀ order, plan.order = some order → IsAcyclicOrder plan.flow.length order)
    (hdecode : decodePlan plan = .ok decoded)
    (h : vetPartialPlanAllocation target decoded observations = .error message) :
    ¬ BoundedByTarget target plan observations := by
  have hacyclic : IsAcyclicOrder plan.flow.length (planOrder plan.flow.length plan.order) := by
    cases hgiven : plan.order with
    | none => exact isAcyclicOrder_fullOrder _
    | some order => exact horder order hgiven
  obtain ⟨order, hmake⟩ := makeDependencies_of_acyclic hacyclic.valid hacyclic.acyclic
  obtain ⟨C, hC, place, hplace, hceiling⟩ :=
    vetPartialPlanAllocation_error ((makeDependencies_decoded hdecode).trans hmake) h
  rw [length_decoded hdecode] at hC
  -- A part that includes what it requires can be completed alone.
  have hsub : C ⊆ Finset.range plan.flow.length := fun i hi => Finset.mem_range.mpr (hC.within i hi)
  have hcompletable := (makeDependencies_ok hmake).2.of_subset hsub hC.closed
  obtain ⟨s, hs, hcompleted⟩ := exists_reachable (planJob plan) hmake hcompletable hC.within
  intro hbounded
  apply hceiling
  have hle := hbounded s hs place hplace
  rwa [← withinCeiling_iff, hcompleted, balanceAfter_eq hdecode] at hle

theorem scaledExcess_cast (hpositive : 0 < sumPortions target) {chain : String} {place : PlaceRef}
    (hplace : isInstrumentId place ∧ chainOf place = .ok chain) (balance : Int) :
    ((scaledExcess observations.balances.values.sum target chain place balance : Int) : ℚ) =
      max 0 (balance - targetShare target observations place) * sumPortions target := by
  have hportions : (sumPortions target : ℚ) ≠ 0 := by
    exact_mod_cast hpositive.ne'
  unfold scaledExcess targetShare
  rw [if_pos hplace, max_mul_of_nonneg _ _ (Nat.cast_nonneg _), zero_mul, sub_mul,
    div_mul_cancel₀ _ hportions]
  generalize observations.balances.values.sum = total
  push_cast
  rfl

theorem boundedDivergence_of_vetted {order : Dependencies} (hdecode : decodePlan plan = .ok decoded)
    (hmake : makeDependencies (planJob plan).taskQty (planJob plan).order = .ok order)
    {balances : Balances} (hproject : projectPlanBalances decoded observations = .ok balances)
    (h : vetAllocationCeilings balances target = .ok ()) :
    BoundedDivergence target plan observations := by
  obtain ⟨hfinal, htotal⟩ := projectPlanBalances_ok (movesApart_decoded hdecode) hproject
  have hnonneg : 0 ≤ balances.values.sum := by
    rw [htotal]
    exact Int.natCast_nonneg _
  obtain ⟨hportions, hbudget⟩ := vetAllocationCeilings_ok hnonneg h
  intro s hs hall chain places hplaces
  have hcompleted : s.completed.toFinset = Finset.range plan.flow.length := by
    ext ix
    rw [Finset.mem_range]
    constructor
    · exact (closedSteps_of_reachable hmake hs).within ix
    · exact fun hix => List.mem_toFinset.mpr (hall ix hix)
  have hbalance : ∀ place, balanceAfter plan observations s.completed.toFinset place =
      balanceAt balances place := by
    intro place
    rw [balanceAfter_eq hdecode, hfinal, hcompleted, length_decoded hdecode]
    rfl
  simp only [hbalance]
  rcases Nat.eq_zero_or_pos (sumPortions target) with hzero | hpositive
  · have hnone : ∀ place ∈ places, max 0
        ((balanceAt balances place : ℚ) - targetShare target observations place) = 0 := by
      intro place hplace
      have hempty : balanceAt balances place = 0 := by
        by_contra hbalance
        have hpositive := hportions place (hplaces place hplace).1 hbalance
        omega
      unfold targetShare
      rw [hempty, hzero, Nat.cast_zero, div_zero, Int.cast_zero, sub_zero, max_self]
    rw [Finset.sum_eq_zero hnone]
    norm_num
  · have hscaled : ∀ place ∈ places, max 0
        ((balanceAt balances place : ℚ) - targetShare target observations place) *
          sumPortions target =
        ((scaledExcess balances.values.sum target chain place (balanceAt balances place) : Int) :
          ℚ) := by
      intro place hplace
      rw [htotal]
      exact (scaledExcess_cast hpositive (hplaces place hplace) _).symm
    have hle : ((∑ place ∈ places, scaledExcess balances.values.sum target chain place
        (balanceAt balances place) : Int) : ℚ) ≤
          ((maxChainAllocationDivergenceUusdc * sumPortions target : Int) : ℚ) :=
      Int.cast_le.mpr (hbudget chain places)
    rw [Int.cast_sum, ← Finset.sum_congr rfl hscaled, ← Finset.sum_mul] at hle
    push_cast at hle
    exact le_of_mul_le_mul_right hle (Nat.cast_pos.mpr hpositive)

/-- An accepted plan is safe whatever fails, and a plan is refused for what it could leave
behind only if it could. -/
theorem partial_failure_safety (target : TargetAllocation) (plan : FundsFlowPlan)
    (observations : PlanObservations) :
    (vetPlanAllocation target plan observations = .ok () →
      BoundedByTarget target plan observations ∧ BoundedDivergence target plan observations) ∧
    ((∀ order, plan.order = some order → IsAcyclicOrder plan.flow.length order) →
      ∀ decoded message, decodePlan plan = .ok decoded →
        vetPartialPlanAllocation target decoded observations = .error message →
        ¬ BoundedByTarget target plan observations) := by
  constructor
  · intro h
    unfold vetPlanAllocation at h
    obtain ⟨decoded, hdecode, h⟩ := bind_eq_ok.mp h
    obtain ⟨-, -, h⟩ := bind_eq_ok.mp h
    obtain ⟨-, -, h⟩ := bind_eq_ok.mp h
    obtain ⟨balances, hproject, h⟩ := bind_eq_ok.mp h
    obtain ⟨⟨⟩, hceilings, hpartial⟩ := bind_eq_ok.mp h
    obtain ⟨order, hmake, -⟩ := vetPartialPlanAllocation_ok hpartial
    rw [makeDependencies_decoded hdecode] at hmake
    exact ⟨boundedByTarget_of_vetted hdecode hpartial,
      boundedDivergence_of_vetted hdecode hmake hproject hceilings⟩
  · intro horder decoded message hdecode hrefused
    exact not_boundedByTarget_of_refused horder hdecode hrefused

def baseTarget : TargetAllocation := ⟨[("Aave_Base", 60), ("Compound_Base", 40)], by decide⟩

def baseObservations : PlanObservations where
  balances := ⟨[("@Base", 10000000), ("Aave_Base", 0), ("Compound_Base", 0)], by decide⟩
  instrumentTvls := ∅

def depositPlan : FundsFlowPlan where
  flow := [{ amount := 6000000, src := "@Base", dest := "Aave_Base" },
    { amount := 4000000, src := "@Base", dest := "Compound_Base" }]
  order := some [(1, [0])]

/-- Should the second step fail, the first one leaves too much behind. -/
def overshootPlan : FundsFlowPlan where
  flow := [{ amount := 7000000, src := "@Base", dest := "Aave_Base" },
    { amount := 1000000, src := "Aave_Base", dest := "@Base" }]

theorem partial_failure_safety_base :
    (BoundedByTarget baseTarget depositPlan baseObservations ∧
      BoundedDivergence baseTarget depositPlan baseObservations) ∧
    ¬ BoundedByTarget baseTarget overshootPlan baseObservations := by
  constructor
  · have haccepted : vetPlanAllocation baseTarget depositPlan baseObservations = .ok () := by
      decide +kernel
    exact (partial_failure_safety _ _ _).1 haccepted
  · let decoded : DecodedPlan := { flow := [.move "@Base" "Aave_Base" 7000000,
      .move "Aave_Base" "@Base" 1000000] }
    have hdecode : decodePlan overshootPlan = .ok decoded := by decide +kernel
    have hrefused : vetPartialPlanAllocation baseTarget decoded baseObservations ≠ .ok () := by
      decide +kernel
    cases hvet : vetPartialPlanAllocation baseTarget decoded baseObservations with
    | ok u => exact absurd hvet hrefused
    | error message =>
      exact (partial_failure_safety _ _ _).2 nofun decoded message hdecode hvet

end Safety

end AgoricSdk.Portfolio
