import AgoricSdk.Lib.Transition
import AgoricSdk.Portfolio.OwnerSteps
import AgoricSdk.Portfolio.SubmissionSteps

/-!
Runs of a portfolio: its steps in any order, with a history of the mandates under
which agents started flows and of the changes of policy.
-/

namespace AgoricSdk.Portfolio

open StateProgram

variable {δ : Type} {c : Contract δ}

section Authors

/-- The flow for which a step may change the policy. -/
def authorOf (c : Contract δ) : Action δ → Option Nat
  | .owner request => if request.startsFlow then some c.portfolio.nextFlowId else none
  | .observationsVerified _ _ | .rebalance _ _ | .claimRewards _ _ | .plannerRebalance _ _
  | .plannerClaimRewards _ _ => some c.portfolio.nextFlowId
  | .resolvePlan flowId _ _ _ _ => some flowId
  | _ => none

/-- The client of a delegated call, and the permission that the call needs. -/
def delegatedBy (c : Contract δ) : Action δ → Option (PortfolioDelegationClient × Permission)
  | .observationsVerified turn _ =>
    match c.turns.lookup turn with
    | some (.setTargetAllocation client _) => some (client, .allocation)
    | _ => none
  | .rebalance client _ => some (client, .rebalance)
  | .claimRewards client _ => some (client, .claimRewards)
  | .plannerRebalance _ _ => c.plannerDelegation.map fun client => (client, .rebalance)
  | .plannerClaimRewards _ _ => c.plannerDelegation.map fun client => (client, .claimRewards)
  | _ => none

/-- The observations that come with a step. -/
def observationsOf (c : Contract δ) : Action δ → Option PlanObservations
  | .observationsVerified turn outcome =>
    match c.turns.lookup turn with
    | some (.setTargetAllocation _ params) =>
      if params.signedObservations then outcome.toOption.map (·.observations) else none
    | _ => none
  | .resolvePlan _ _ _ _ observations => observations
  | _ => none

def IsDelegated : Action δ → Prop
  | .observationsVerified _ _ | .rebalance _ _ | .claimRewards _ _ | .plannerRebalance _ _
  | .plannerClaimRewards _ _ => True
  | _ => False

theorem authorOf_delegated {a : Action δ} (ha : IsDelegated a) :
    authorOf c a = some c.portfolio.nextFlowId := by
  cases a with
  | observationsVerified | rebalance | claimRewards | plannerRebalance | plannerClaimRewards => rfl
  | _ => cases ha

end Authors

/-- What a step does to the portfolio. -/
inductive Effect (c : Contract δ) (a : Action δ) (t : PortfolioState δ) : Prop where
  | quiet : Quiet c.portfolio t → Effect c a t
  | policy : authorOf c a = none → PolicyChanged c.portfolio t → Effect c a t
  | owner (request : OwnerRequest) (flow : RunningFlow) : a = .owner request →
      authorOf c a = some c.portfolio.nextFlowId → OwnerStarted c.portfolio t flow → Effect c a t
  | agent (client : PortfolioDelegationClient) (required : Permission) :
      delegatedBy c a = some (client, required) →
      authorOf c a = some c.portfolio.nextFlowId →
      Submitted (observationsOf c a) client required c.portfolio t → Effect c a t
  | planned (flowId : Nat) (plan : FundsFlowPlan) (version count : Nat)
      (observations : Option PlanObservations) (old flow : RunningFlow) :
      a = .resolvePlan flowId plan version count observations →
      Planned observations c.portfolio t flowId old flow →
      PlanVetted c.portfolio flowId old plan version count observations →
      (∀ accepted, flow.sync = some (.resolved accepted) → PlacesFit c.portfolio old plan) →
      Effect c a t

section Calls

variable {α : Type}

theorem wp_onPortfolio {m : Facet δ α} {Q : α → Contract δ → Prop}
    {E : String → Contract δ → Prop} :
    Wp (onPortfolio m) Q E c ↔
      Wp m (fun a s => Q a { c with portfolio := s }) (fun e s => E e { c with portfolio := s })
        c.portfolio := by
  unfold Wp onPortfolio
  cases m c.portfolio <;> rfl

variable {P : PortfolioState δ → Prop}

/-- A call that leaves the portfolio in a state with the property. -/
def Leaves (m : Call δ α) (P : PortfolioState δ → Prop) (c : Contract δ) : Prop :=
  Wp m (fun _ c' => P c'.portfolio) (fun _ c' => P c'.portfolio) c

theorem evmGrant_leaves {grantee : String} {permissions : PortfolioPermissions}
    (h : P c.portfolio) : Leaves (evmGrant grantee permissions) P c := by
  unfold Leaves evmGrant
  rw [wp_bind, wp_onPortfolio]
  refine insistEvmOwned_spec ?_ fun _ => h
  rw [wp_bind, wp_onPortfolio]
  exact check_spec (fun _ => h) fun _ => h

theorem evmSetAutoFeatures_leaves {features : PortfolioAutoFeatures} :
    Leaves (evmSetAutoFeatures features) (Quiet c.portfolio) c := by
  unfold Leaves evmSetAutoFeatures
  rw [wp_bind, wp_onPortfolio]
  refine insistEvmOwned_spec ?_ fun _ => Quiet.refl _
  rw [wp_bind, wp_onPortfolio]
  exact wp_mono beginAutoFeatures_spec (fun _ _ h => h) fun _ _ h => h

theorem clientSetTargetAllocation_leaves {client : PortfolioDelegationClient}
    {params : DelegatedSetTargetAllocationParams} (h : P c.portfolio) :
    Leaves (clientSetTargetAllocation client params) P c := by
  unfold Leaves clientSetTargetAllocation
  rw [wp_bind, wp_onPortfolio]
  refine getAuthorizedDelegation_spec (fun _ _ => ?_) fun _ => h
  rw [wp_bind, wp_onPortfolio]
  refine check_spec (fun _ => ?_) fun _ => h
  cases params.plan with
  | none => exact h
  | some plan =>
    simp only [wp_bind, wp_onPortfolio]
    exact ofExcept_spec (fun _ _ => h) fun _ _ => h

theorem settleDelivery_leaves {turn : Nat} {outcome : Option String} :
    Leaves (settleDelivery turn outcome) (Quiet c.portfolio) c := by
  unfold Leaves settleDelivery
  rw [wp_bind, wp_get]
  cases c.turns.lookup turn with
  | none => exact Quiet.refl _
  | some next =>
    cases next with
    | delivery agentId granted features =>
      simp only [dropTurn, wp_bind, wp_modify]
      cases outcome with
      | some error =>
        simp only [wp_bind, wp_onPortfolio]
        exact wp_mono withdrawGrant_spec (fun _ _ h => h) fun _ _ (h : Quiet _ _) => h
      | none =>
        have hfinished (merged : PortfolioAutoFeatures) : Quiet c.portfolio { c.portfolio with
            plannerAgentId := some agentId, enabledAutoFeatures := some merged } :=
          SameView.quiet ⟨⟨rfl, rfl, rfl, le_rfl⟩, rfl, fun _ => rfl⟩
        unfold deliverDelegation
        simp only [wp_bind]
        apply wp_ite
        · intro _
          cases features with
          | none => exact Quiet.refl _
          | some merged => exact hfinished merged
        · intro _
          cases features with
          | none => exact Quiet.refl _
          | some merged => exact hfinished merged
    | _ => exact Quiet.refl _

theorem resume_leaves {turn : Nat} :
    Leaves (resume turn) (fun t => Quiet c.portfolio t ∨ PolicyChanged c.portfolio t) c := by
  have hleft : Quiet c.portfolio c.portfolio ∨ PolicyChanged c.portfolio c.portfolio :=
    .inl (Quiet.refl _)
  unfold Leaves resume
  rw [wp_bind, wp_get]
  cases c.turns.lookup turn with
  | none => exact hleft
  | some next =>
    cases next with
    | grant grantee permissions =>
      simp only [dropTurn, wp_bind, wp_modify, wp_onPortfolio]
      exact wp_mono grantDelegation_spec (fun _ _ h => .inr h) fun _ _ h => .inr h
    | autoFeatures call =>
      simp only [dropTurn, wp_bind, wp_modify, wp_onPortfolio]
      refine wp_mono continueAutoFeatures_spec (fun granted t h => ?_) fun _ _ h => ?_
      · cases granted <;> exact .inr h
      · rcases h with rfl | h
        · exact hleft
        · exact .inr h
    | _ => exact hleft

/-- A delegated call succeeds only as a submission; a failed one may have started its flow. -/
def Delegates (c : Contract δ) (a : Action δ) : Prop :=
  Wp (perform a)
    (fun _ c' => ∃ client required, delegatedBy c a = some (client, required) ∧
      Submitted (observationsOf c a) client required c.portfolio c'.portfolio)
    (fun _ c' => c'.portfolio = c.portfolio ∨ ∃ client required,
      delegatedBy c a = some (client, required) ∧
        Submitted (observationsOf c a) client required c.portfolio c'.portfolio) c

theorem continueSetTargetAllocation_spec {s : PortfolioState δ} {client : PortfolioDelegationClient}
    {params : DelegatedSetTargetAllocationParams} {verified : Option VerifiedPortfolioObservations}
    (hfresh : ¬ s.flowsRunning.has s.nextFlowId) :
    Wp (continueSetTargetAllocation client params verified)
      (fun _ t => Submitted (verified.map (·.observations)) client .allocation s t)
      (fun _ t => t = s) s := by
  unfold continueSetTargetAllocation
  rw [wp_bind]
  refine getAuthorizedDelegation_spec (fun _ _ => ?_) fun _ => rfl
  rw [wp_bind, wp_get, wp_bind]
  refine check_spec (fun _ => ?_) fun _ => rfl
  rw [wp_bind]
  refine check_spec (fun _ => ?_) fun _ => rfl
  exact wp_mono (submitTargetAllocation_spec hfresh) (fun _ _ h => h.2) fun _ _ h => h

theorem observationsVerified_delegates (turn : Nat)
    (outcome : Except String VerifiedPortfolioObservations)
    (hfresh : ¬ c.portfolio.flowsRunning.has c.portfolio.nextFlowId) :
    Delegates c (.observationsVerified turn outcome) := by
  unfold Delegates perform observationsVerified
  rw [wp_map, wp_bind, wp_get]
  cases hturn : c.turns.lookup turn with
  | none => exact .inl rfl
  | some next =>
    cases next with
    | setTargetAllocation client params =>
      have hclient : delegatedBy c (.observationsVerified turn outcome) =
          some (client, .allocation) := by
        simp only [delegatedBy, hturn]
      have hobservations : observationsOf c (.observationsVerified turn outcome) =
          if params.signedObservations then outcome.toOption.map (·.observations) else none := by
        simp only [observationsOf, hturn]
      simp only [dropTurn, wp_bind, wp_modify]
      apply wp_ite
      · intro hsigned
        rw [if_pos hsigned] at hobservations
        simp only [wp_bind, wp_onPortfolio]
        refine ofExcept_spec (fun verified hverified => ?_) fun _ _ => .inl rfl
        subst hverified
        refine wp_mono (continueSetTargetAllocation_spec hfresh) ?_ fun _ _ h => .inl h
        intro _ _ h
        rw [hobservations]
        exact ⟨client, .allocation, hclient, h⟩
      · intro hunsigned
        rw [if_neg hunsigned] at hobservations
        rw [wp_onPortfolio]
        refine wp_mono (continueSetTargetAllocation_spec hfresh) ?_ fun _ _ h => .inl h
        intro _ _ h
        rw [hobservations]
        exact ⟨client, .allocation, hclient, h⟩
    | _ => exact .inl rfl

theorem rebalance_delegates (client : PortfolioDelegationClient) (params : DelegatedParams)
    (hfresh : ¬ c.portfolio.flowsRunning.has c.portfolio.nextFlowId) :
    Delegates c (.rebalance client params) := by
  unfold Delegates perform
  rw [wp_map, wp_onPortfolio]
  exact wp_mono (submitRebalance_spec hfresh) (fun _ _ h => ⟨client, .rebalance, rfl, h.2⟩)
    fun _ _ h => .inl h

theorem claimRewards_delegates (client : PortfolioDelegationClient) (params : DelegatedParams)
    (hfresh : ¬ c.portfolio.flowsRunning.has c.portfolio.nextFlowId) :
    Delegates c (.claimRewards client params) := by
  unfold Delegates perform
  rw [wp_map, wp_onPortfolio]
  exact wp_mono (submitClaimRewards_spec hfresh) (fun _ _ h => ⟨client, .claimRewards, rfl, h.2⟩)
    fun _ _ h => .inl h

theorem plannerClient_spec {feature : PortfolioAutoFeatures → Bool} {name : String} :
    Wp (plannerClient feature name)
      (fun client c' => c' = c ∧ c.plannerDelegation = some client) (fun _ c' => c' = c) c := by
  unfold plannerClient
  rw [wp_bind, wp_get]
  cases hclient : c.plannerDelegation with
  | none => exact rfl
  | some client =>
    simp only [wp_bind, wp_attempt, wp_onPortfolio]
    refine getAuthorizedDelegation_spec (fun _ _ => ?_) fun _ => rfl
    exact wp_ite (fun _ => ⟨rfl, rfl⟩) fun _ => rfl

theorem planner_delegates {a : Action δ} {required : Permission} (hrequired : required ≠ .allocation)
    {submit : PortfolioDelegationClient → Facet δ Nat} {syncState : PortfolioSyncState}
    {plan : FundsFlowPlan} {feature : PortfolioAutoFeatures → Bool} {name : String}
    (hdelegatedBy : delegatedBy c a = c.plannerDelegation.map fun client => (client, required))
    (hsubmit : ∀ client, Wp (submit client)
      (fun flowId t => flowId = c.portfolio.nextFlowId ∧
        Submitted (observationsOf c a) client required c.portfolio t)
      (fun _ t => t = c.portfolio) c.portfolio) :
    Wp (do
      let client ← plannerClient feature name
      let flowId ← onPortfolio (submit client)
      onPortfolio (submitPlannerPlan flowId syncState plan))
      (fun _ c' => Later c.portfolio c'.portfolio ∧ ∃ client required,
        delegatedBy c a = some (client, required) ∧
        Submitted (observationsOf c a) client required c.portfolio c'.portfolio)
      (fun _ c' => c'.portfolio = c.portfolio ∨ ∃ client required,
        delegatedBy c a = some (client, required) ∧
          Submitted (observationsOf c a) client required c.portfolio c'.portfolio) c := by
  rw [wp_bind]
  refine wp_mono plannerClient_spec ?_ fun _ _ h => .inl (h ▸ rfl)
  rintro client _ ⟨rfl, hclient⟩
  rw [hclient, Option.map_some] at hdelegatedBy
  rw [wp_bind, wp_onPortfolio]
  refine wp_mono (hsubmit client) ?_ fun _ _ h => .inl h
  rintro _ t ⟨rfl, hsubmitted⟩
  rw [wp_onPortfolio]
  refine wp_mono (submitPlannerPlan_spec hrequired hsubmitted) ?_ ?_
  · rintro _ u ⟨-, hu, hlater⟩
    exact ⟨hlater, client, required, hdelegatedBy, hu⟩
  · exact fun _ u hu => .inr ⟨client, required, hdelegatedBy, hu⟩

theorem plannerRebalance_spec (params : DelegatedParams) (plan : FundsFlowPlan)
    (hfresh : ¬ c.portfolio.flowsRunning.has c.portfolio.nextFlowId) :
    Delegates c (.plannerRebalance params plan) := by
  unfold Delegates perform plannerRebalance
  rw [wp_map]
  refine wp_mono (planner_delegates (nofun : Permission.rebalance ≠ .allocation) rfl
    fun client => submitRebalance_spec hfresh) (fun _ _ h => h.2) fun _ _ h => h

theorem plannerClaimRewards_spec (params : DelegatedParams) (plan : FundsFlowPlan)
    (hfresh : ¬ c.portfolio.flowsRunning.has c.portfolio.nextFlowId) :
    Delegates c (.plannerClaimRewards params plan) := by
  unfold Delegates perform plannerClaimRewards
  rw [wp_map]
  refine wp_mono (planner_delegates (nofun : Permission.claimRewards ≠ .allocation) rfl
    fun client => submitClaimRewards_spec hfresh) (fun _ _ h => h.2) fun _ _ h => h

theorem delegates {a : Action δ} (ha : IsDelegated a)
    (hfresh : ¬ c.portfolio.flowsRunning.has c.portfolio.nextFlowId) : Delegates c a := by
  cases a with
  | observationsVerified turn outcome => exact observationsVerified_delegates turn outcome hfresh
  | rebalance client params => exact rebalance_delegates client params hfresh
  | claimRewards client params => exact claimRewards_delegates client params hfresh
  | plannerRebalance params plan => exact plannerRebalance_spec params plan hfresh
  | plannerClaimRewards params plan => exact plannerClaimRewards_spec params plan hfresh
  | _ => cases ha

theorem effect_of_perform (a : Action δ)
    (hfresh : ¬ c.portfolio.flowsRunning.has c.portfolio.nextFlowId)
    (hpending : ∀ flowId flow, c.portfolio.flowsRunning.lookup flowId = some flow →
      flow.detail.pendingTargetAllocation.isSome → flow.awaitingSteps ∧ flow.detail.agent.isSome) :
    Effect c a (finalState (perform a) c).portfolio := by
  have hquiet {m : Call δ Unit} (h : Leaves m (Quiet c.portfolio) c) :
      Effect c a (finalState ((fun _ => (none : Option Nat)) <$> m) c).portfolio := by
    refine .quiet (finalState_of_wp (P := fun c' : Contract δ => Quiet c.portfolio c'.portfolio) ?_)
    rw [wp_map]
    exact h
  have hdelegated (ha : IsDelegated a) : Effect c a (finalState (perform a) c).portfolio := by
    have hauthor : authorOf c a = some c.portfolio.nextFlowId := authorOf_delegated ha
    apply finalState_of_wp (P := fun c' : Contract δ => Effect c a c'.portfolio)
    refine wp_mono (delegates ha hfresh) ?_ ?_
    · rintro _ c' ⟨client, required, hby, hsubmitted⟩
      exact .agent client required hby hauthor hsubmitted
    · rintro _ c' (hsame | ⟨client, required, hby, hsubmitted⟩)
      · exact .quiet (hsame ▸ Quiet.refl _)
      · exact .agent client required hby hauthor hsubmitted
  cases a with
  | owner request =>
    apply finalState_of_wp (P := fun c' : Contract δ => Effect c (.owner request) c'.portfolio)
    have heffect (t : PortfolioState δ) (h : OwnerEffect request c.portfolio t) :
        Effect c (.owner request) t := by
      rcases h with hquiet | ⟨hstarts, hpolicy⟩ | ⟨hstarts, flow, hstarted⟩
      · exact .quiet hquiet
      · exact .policy (by simp [authorOf, hstarts]) hpolicy
      · exact .owner request flow rfl (by simp [authorOf, hstarts]) hstarted
    unfold perform
    rw [wp_onPortfolio]
    exact wp_mono (ownerRequest_spec hfresh request) (fun _ => heffect) fun _ => heffect
  | grant grantee permissions => exact hquiet (evmGrant_leaves (Quiet.refl _))
  | setAutoFeatures features => exact hquiet evmSetAutoFeatures_leaves
  | resume turn =>
    apply finalState_of_wp (P := fun c' : Contract δ => Effect c (.resume turn) c'.portfolio)
    have heffect (t : PortfolioState δ)
        (h : Quiet c.portfolio t ∨ PolicyChanged c.portfolio t) : Effect c (.resume turn) t := by
      rcases h with hquiet | hpolicy
      · exact .quiet hquiet
      · exact .policy rfl hpolicy
    unfold perform
    rw [wp_map]
    exact wp_mono resume_leaves (fun _ _ => heffect _) fun _ _ => heffect _
  | settleDelivery turn outcome => exact hquiet settleDelivery_leaves
  | setTargetAllocation client params =>
    exact hquiet (clientSetTargetAllocation_leaves (Quiet.refl _))
  | observationsVerified turn outcome => exact hdelegated trivial
  | rebalance client params => exact hdelegated trivial
  | claimRewards client params => exact hdelegated trivial
  | plannerRebalance params plan => exact hdelegated trivial
  | plannerClaimRewards params plan => exact hdelegated trivial
  | resolvePlan flowId plan version count observations =>
    let a : Action δ := .resolvePlan flowId plan version count observations
    apply finalState_of_wp (P := fun c' : Contract δ => Effect c a c'.portfolio)
    have heffect (t : PortfolioState δ)
        (h : Answered observations flowId plan version count c.portfolio t) : Effect c a t := by
      rcases h with ⟨-, hquiet | ⟨old, flow, hplanned, hvetted, haccepted⟩⟩
      · exact .quiet hquiet
      · exact .planned flowId plan version count observations old flow rfl hplanned hvetted
          fun accepted h => (haccepted accepted h).2
    unfold perform
    rw [wp_map, wp_onPortfolio]
    refine wp_mono (resolvePlan_spec (hpending flowId)) (fun _ => heffect) ?_
    rintro _ t (rfl | h)
    · exact .quiet (Quiet.refl _)
    · exact heffect t h
  | rejectPlan flowId reason version count =>
    apply hquiet
    unfold Leaves
    rw [wp_onPortfolio]
    refine wp_mono rejectPlan_spec (fun _ _ h => h.2) fun _ _ h => ?_
    rw [h]
    exact Quiet.refl _
  | finishFlow flowId => exact .quiet (quiet_of_erased flowId)
  | accountsChanged accounts =>
    exact .quiet (SameView.quiet ⟨⟨rfl, rfl, rfl, le_rfl⟩, rfl, fun _ => rfl⟩)
  | providePosition poolKey =>
    apply hquiet
    show Quiet c.portfolio (if _ then _ else _)
    split
    · exact Quiet.refl _
    · exact SameView.quiet ⟨⟨rfl, rfl, rfl, le_rfl⟩, rfl, fun _ => rfl⟩

end Calls

section Runs

/-- A change of the policy: for which flow it was made, if for one, and the policy then. -/
structure PolicyChange where
  flowId : Option Nat
  targetAllocation : Option TargetAllocation
  policyVersion : Nat

structure PortfolioWorld (δ : Type) where
  contract : Contract δ
  /-- The delegation of the agent at the time when it started a flow. -/
  mandates : Nat → Option PortfolioAgentInfo
  changes : List PolicyChange

def PortfolioWorld.portfolio (w : PortfolioWorld δ) : PortfolioState δ := w.contract.portfolio

/-- A new portfolio. -/
def PortfolioWorld.open (portfolioId : Nat) (sourceAccountId : Option String) : PortfolioWorld δ where
  contract := { portfolio := { portfolioId, sourceAccountId } }
  mandates := fun _ => none
  changes := []

def PortfolioWorld.step (w : PortfolioWorld δ) (a : Action δ) : PortfolioWorld δ :=
  let c := finalState (perform a) w.contract
  { contract := c
    mandates := fun flowId =>
      if w.portfolio.flowsRunning.has flowId then w.mandates flowId
      else (c.portfolio.flowsRunning.lookup flowId).bind fun flow =>
        flow.detail.agent.bind (delegationOf c.portfolio)
    changes :=
      if c.portfolio.policyVersion = w.portfolio.policyVersion then w.changes
      else w.changes ++ [{
        flowId := authorOf w.contract a
        targetAllocation := c.portfolio.targetAllocation
        policyVersion := c.portfolio.policyVersion }] }

/-- Its runs are those of one portfolio, with all its parties. -/
def portfolioSystem (δ : Type) : TransitionSystem (PortfolioWorld δ) (Action δ) where
  init w := ∃ portfolioId sourceAccountId, w = PortfolioWorld.open portfolioId sourceAccountId
  step w a := some (w.step a)

/-- Flow ids are not used again, and only an agent's flow that waits has an allocation pending. -/
structure FlowsKept (s : PortfolioState δ) : Prop where
  allocated : ∀ flowId flow, s.flowsRunning.lookup flowId = some flow → flowId < s.nextFlowId
  pending : ∀ flowId flow, s.flowsRunning.lookup flowId = some flow →
    flow.detail.pendingTargetAllocation.isSome → flow.awaitingSteps ∧ flow.detail.agent.isSome

variable {w : PortfolioWorld δ} {a : Action δ} {s t : PortfolioState δ}

theorem FlowsKept.fresh (h : FlowsKept s) : ¬ s.flowsRunning.has s.nextFlowId := by
  intro hhas
  obtain ⟨flow, hflow⟩ := Option.isSome_iff_exists.mp hhas
  exact absurd (h.allocated _ flow hflow) (lt_irrefl _)

theorem FlowsKept.effect (h : FlowsKept w.portfolio) (a : Action δ) :
    Effect w.contract a (w.step a).portfolio :=
  effect_of_perform a h.fresh h.pending

theorem pending_rejected (reason : String) (flow : RunningFlow) :
    (flow.rejected reason).detail.pendingTargetAllocation = none := by
  unfold RunningFlow.rejected
  by_cases hpending : flow.detail.pendingTargetAllocation.isSome
  · simp only [hpending, if_true]
    obtain ⟨target, htarget⟩ := Option.isSome_iff_exists.mp hpending
    obtain ⟨sync, detail⟩ := flow
    cases detail with
    | rebalance detail =>
      obtain ⟨agent, memo, operation, createdAt⟩ := detail
      cases operation <;> rfl
    | _ => cases htarget
  · show (if flow.detail.pendingTargetAllocation.isSome then _
      else flow.detail).pendingTargetAllocation = none
    rw [if_neg hpending]
    exact Option.not_isSome_iff_eq_none.mp hpending

theorem FlowsKept.quiet (h : FlowsKept s) (hquiet : Quiet s t) : FlowsKept t where
  allocated := by
    intro flowId flow hflow
    obtain ⟨old, hold, -⟩ := hquiet.flows flowId flow hflow
    rw [hquiet.nextFlowId]
    exact h.allocated flowId old hold
  pending := by
    intro flowId flow hflow hpending
    obtain ⟨old, hold, rfl | ⟨_, reason, rfl⟩⟩ := hquiet.flows flowId flow hflow
    · exact h.pending flowId flow hold hpending
    · simp [pending_rejected] at hpending

theorem FlowsKept.insert {flowId : Nat} {flow : RunningFlow} (h : FlowsKept s)
    (hflows : t.flowsRunning = s.flowsRunning.insert flowId flow)
    (hnext : s.nextFlowId ≤ t.nextFlowId) (hid : flowId < t.nextFlowId)
    (hpending : flow.detail.pendingTargetAllocation.isSome →
      flow.awaitingSteps ∧ flow.detail.agent.isSome) : FlowsKept t where
  allocated := by
    intro id found hfound
    rw [hflows, Table.lookup_insert] at hfound
    split at hfound
    · next heq => exact heq ▸ hid
    · exact (h.allocated id found hfound).trans_le hnext
  pending := by
    intro id found hfound
    rw [hflows, Table.lookup_insert] at hfound
    split at hfound
    · cases hfound
      exact hpending
    · exact h.pending id found hfound

theorem FlowsKept.started {flow : RunningFlow} (h : FlowsKept s) (hstarted : Started s t flow)
    (hagent : flow.detail.pendingTargetAllocation.isSome → flow.detail.agent.isSome) :
    FlowsKept t := by
  apply h.insert hstarted.flows
  · rw [hstarted.nextFlowId]
    exact Nat.le_succ _
  · rw [hstarted.nextFlowId]
    exact Nat.lt_succ_self _
  · exact fun hpending => ⟨hstarted.pending hpending, hagent hpending⟩

theorem FlowsKept.step (h : FlowsKept w.portfolio) (a : Action δ) :
    FlowsKept (w.step a).portfolio := by
  cases h.effect a with
  | quiet hquiet => exact h.quiet hquiet
  | policy _ hpolicy =>
    constructor
    · rw [hpolicy.flows, hpolicy.nextFlowId]
      exact h.allocated
    · rw [hpolicy.flows]
      exact h.pending
  | owner _ flow _ _ hstarted =>
    apply h.started hstarted.toStarted
    rw [hstarted.decided]
    exact nofun
  | agent client required _ _ hsubmitted =>
    obtain ⟨info, flow, -, -, -, hstarted⟩ := hsubmitted
    apply h.started hstarted.toStarted
    exact fun _ => hstarted.agent ▸ rfl
  | planned flowId plan version count observations old flow _ hplanned _ _ =>
    apply h.insert hplanned.flows hplanned.nextFlowId.ge
    · rw [hplanned.nextFlowId]
      exact h.allocated flowId old hplanned.running
    · intro hpending
      rcases hplanned.detail with ⟨_, hnone, _⟩ | ⟨target, _, hcommitted, _⟩
      · exact absurd hpending hnone
      · rw [hcommitted, pending_withStatus_ok] at hpending
        cases hpending

theorem committed_of_rejected {flow : RunningFlow} {reason : String}
    {targetAllocation : TargetAllocation} (h : IsCommitted (flow.rejected reason) targetAllocation) :
    IsCommitted flow targetAllocation := by
  obtain ⟨version, hoperation⟩ := h
  unfold RunningFlow.rejected at hoperation
  by_cases hpending : flow.detail.pendingTargetAllocation.isSome
  · obtain ⟨target, htarget⟩ := Option.isSome_iff_exists.mp hpending
    simp only [hpending, if_true, operation_withStatus _ htarget] at hoperation
    cases hoperation
  · simp only [if_neg hpending] at hoperation
    exact ⟨version, hoperation⟩

theorem flow_of_insert {flowId id : Nat} {flow found : RunningFlow}
    (hflows : (w.step a).portfolio.flowsRunning = w.portfolio.flowsRunning.insert flowId flow)
    (hfound : (w.step a).portfolio.flowsRunning.lookup id = some found) :
    id = flowId ∧ found = flow ∨ w.portfolio.flowsRunning.lookup id = some found := by
  rw [hflows, Table.lookup_insert] at hfound
  split at hfound
  · next heq => exact .inl ⟨heq, (Option.some.inj hfound).symm⟩
  · exact .inr hfound

theorem no_flow_open (portfolioId : Nat) (sourceAccountId : Option String) {flowId : Nat}
    {flow : RunningFlow} : (PortfolioWorld.open portfolioId sourceAccountId :
      PortfolioWorld δ).portfolio.flowsRunning.lookup flowId ≠ some flow := by
  have hnone : (PortfolioWorld.open portfolioId sourceAccountId :
      PortfolioWorld δ).portfolio.flowsRunning.lookup flowId = none := Table.lookup_empty flowId
  rw [hnone]
  exact nofun

theorem flowsKept_open (portfolioId : Nat) (sourceAccountId : Option String) :
    FlowsKept (PortfolioWorld.open portfolioId sourceAccountId : PortfolioWorld δ).portfolio :=
  ⟨fun _ _ h => absurd h (no_flow_open portfolioId sourceAccountId),
    fun _ _ h => absurd h (no_flow_open portfolioId sourceAccountId)⟩

end Runs

end AgoricSdk.Portfolio
