import AgoricSdk.Portfolio.PolicySteps

/-!
What the owner's requests and the grants do: they change the policy, start a flow
of the owner, or are quiet.
-/

namespace AgoricSdk.Portfolio

open StateProgram

variable {δ : Type} {s t : PortfolioState δ}

/-- A flow of the owner, for which the allocation may have been set just before. -/
structure OwnerStarted (s t : PortfolioState δ) (flow : RunningFlow) : Prop
    extends Started s t flow where
  owner : flow.detail.agent = none
  decided : flow.detail.pendingTargetAllocation = none
  unrejected : ∀ reason, flow.sync ≠ some (.rejected reason)

def OwnerRequest.startsFlow : OwnerRequest → Bool
  | .evmDeposit _ _ | .evmRebalance _ | .evmWithdraw _ _ | .offerRebalance _ | .offerDeposit _ _
  | .offerSimpleRebalance _ _ | .offerWithdraw _ | .startDeposit _ _ _ _ => true
  | _ => false

/-- What a request of the owner may do. -/
def OwnerEffect (request : OwnerRequest) (s t : PortfolioState δ) : Prop :=
  Quiet s t ∨ request.startsFlow = false ∧ PolicyChanged s t ∨
    request.startsFlow = true ∧ ∃ flow, OwnerStarted s t flow

section Views

/-- The parts of a portfolio that the steps are about. -/
structure SameView (s t : PortfolioState δ) : Prop extends SamePolicy s t where
  flows : t.flowsRunning = s.flowsRunning
  delegations : ∀ agentId, delegationOf t agentId = delegationOf s agentId

theorem SameView.quiet (h : SameView s t) : Quiet s t where
  toSamePolicy := h.toSamePolicy
  flows := fun _ flow hflow => ⟨flow, h.flows ▸ hflow, .inl rfl⟩
  delegations := fun agentId => .inl (h.delegations agentId)

theorem quiet_of_erased (flowId : Nat) :
    Quiet s { s with flowsRunning := s.flowsRunning.erase flowId } := by
  refine { Quiet.refl s with flows := ?_ }
  intro id flow hflow
  rw [Table.lookup_erase] at hflow
  split at hflow
  · cases hflow
  · exact ⟨flow, hflow, .inl rfl⟩

end Views

section Grants

variable {E : String → PortfolioState δ → Prop}

theorem delegationOf_set (agentId other : Nat) (info : PortfolioAgentInfo) :
    delegationOf { s with delegations := s.delegations.map fun t => t.insert agentId info } other =
      if other = agentId then s.delegations.map fun _ => info else delegationOf s other := by
  unfold delegationOf
  cases s.delegations with
  | none => simp
  | some delegations =>
    simp only [Option.map_some, Option.bind_some, Table.lookup_insert]

theorem withdrawGrant_spec {agentId : Nat} {granted : PortfolioAgentInfo} :
    Wp (withdrawGrant agentId granted) (fun _ t => Quiet s t) E s := by
  refine { Quiet.refl s with delegations := fun other => ?_ }
  rw [delegationOf_set]
  split
  · cases hstore : s.delegations with
    | none =>
      refine .inl ?_
      unfold delegationOf
      rw [hstore]
      rfl
    | some delegations => exact .inr ⟨_, rfl, rfl⟩
  · exact .inl rfl

theorem changePermissions_spec {agentId : Nat} {permissions : PortfolioPermissions} :
    Wp (changePermissions agentId permissions) (fun _ t => PolicyChanged s t) (fun _ t => t = s)
      s := by
  unfold changePermissions
  rw [wp_bind, wp_get, wp_bind]
  refine check_spec (fun _ => ?_) fun _ => rfl
  rw [wp_bind]
  refine getDelegation_spec (fun info _ => ?_) fun _ => rfl
  rw [wp_bind]
  refine check_spec (fun _ => ?_) fun _ => rfl
  exact ⟨rfl, rfl, rfl⟩

theorem revokeDelegation_spec {agentId : Nat} :
    Wp (revokeDelegation agentId) (fun _ t => PolicyChanged s t) (fun _ t => t = s) s := by
  unfold revokeDelegation
  rw [wp_bind]
  refine getDelegation_spec (fun info _ => ?_) fun _ => rfl
  show PolicyChanged s (if _ then _ else _)
  split <;> exact ⟨rfl, rfl, rfl⟩

theorem grantDelegation_spec {grantee : PortfolioAgentGrantee} {permissions : PortfolioPermissions} :
    Wp (grantDelegation grantee permissions) (fun _ t => PolicyChanged s t)
      (fun _ t => PolicyChanged s t) s := by
  unfold grantDelegation
  simp only [wp_bind, wp_modify, wp_get]
  refine check_spec (fun _ => ?_) fun _ => ?_
  · exact ⟨rfl, rfl, rfl⟩
  · exact ⟨rfl, rfl, rfl⟩

theorem beginAutoFeatures_spec {features : PortfolioAutoFeatures} :
    Wp (beginAutoFeatures features) (fun _ t => Quiet s t) (fun _ t => Quiet s t) s := by
  unfold beginAutoFeatures
  rw [wp_bind, wp_get]
  cases s.plannerAgentId with
  | none =>
    exact Quiet.refl s
  | some agentId =>
    simp only [wp_bind]
    refine getDelegation_spec (fun info _ => ?_) fun _ => Quiet.refl s
    apply wp_ite
    · exact fun _ => Quiet.refl s
    · exact fun _ => SameView.quiet ⟨⟨rfl, rfl, rfl, le_rfl⟩, rfl, fun _ => rfl⟩

theorem continueAutoFeatures_spec {call : AutoFeaturesCall} :
    Wp (continueAutoFeatures call) (fun _ t => PolicyChanged s t)
      (fun _ t => t = s ∨ PolicyChanged s t) s := by
  obtain ⟨merged, plannerAgentId⟩ := call
  unfold continueAutoFeatures
  cases plannerAgentId with
  | some agentId =>
    simp only [wp_bind, wp_modify]
    refine wp_mono changePermissions_spec (fun _ t h => ?_) fun _ _ => .inl
    exact ⟨h.nextFlowId, h.flows, h.policyVersion⟩
  | none =>
    apply wp_ite
    · intro _
      rw [wp_map]
      exact wp_mono grantDelegation_spec (fun _ _ h => h) fun _ _ => .inr
    · exact fun _ => ⟨rfl, rfl, rfl⟩

theorem assertExternalDelegationTarget_spec {agentId : Nat} :
    Wp (assertExternalDelegationTarget agentId) (fun _ t => t = s) (fun _ t => t = s) s := by
  unfold assertExternalDelegationTarget
  rw [wp_bind, wp_get, wp_bind]
  refine check_spec (fun _ => ?_) fun _ => rfl
  rw [wp_bind]
  refine getDelegation_spec (fun info _ => ?_) fun _ => rfl
  rw [wp_bind]
  refine check_spec (fun _ => ?_) fun _ => rfl
  rw [wp_bind]
  refine check_spec (fun _ => ?_) fun _ => rfl
  exact check_spec (fun _ => rfl) fun _ => rfl

end Grants

section Requests

variable {detail : FlowDetail} {steps : Option FundsFlowPlan}

theorem pending_of_operation (h : detail.operation = none) :
    detail.pendingTargetAllocation = none := by
  cases detail with
  | rebalance detail =>
    have hnone : detail.initiatingOperation = none := h
    simp [FlowDetail.pendingTargetAllocation, hnone]
  | _ => rfl

theorem map_resolved_ne_rejected (reason : String) :
    steps.map PlanOutcome.resolved ≠ some (.rejected reason) := by
  cases steps <;> exact nofun

theorem startFlow_owner (hfresh : ¬ s.flowsRunning.has s.nextFlowId) (hagent : detail.agent = none)
    (hoperation : detail.operation = none) :
    Wp (startFlow detail steps) (fun _ t => ∃ flow, OwnerStarted s t flow)
      (fun _ _ => False) s := by
  apply startFlow_spec hfresh
  exact ⟨_, {
    nextFlowId := rfl
    flows := rfl
    delegations := rfl
    policy := .kept rfl rfl le_rfl
    pending := fun h => by simp [pending_of_operation hoperation] at h
    committed := by
      rintro target ⟨version, h⟩
      rw [hoperation] at h
      cases h
    owner := hagent
    decided := pending_of_operation hoperation
    unrejected := map_resolved_ne_rejected }⟩

theorem startRebalance_spec {target : Option TargetAllocation}
    (hfresh : ¬ s.flowsRunning.has s.nextFlowId) :
    Wp (startRebalance target steps) (fun _ t => ∃ flow, OwnerStarted s t flow)
      (fun _ _ => False) s := by
  cases target with
  | none => exact startFlow_owner hfresh rfl rfl
  | some target =>
    unfold startRebalance
    simp only [wp_bind]
    apply updateTargetAllocation_spec
    have hfresh' : ¬ (s.withPolicy (some target)).flowsRunning.has
        (s.withPolicy (some target)).nextFlowId := hfresh
    apply startFlow_spec hfresh'
    exact ⟨_, {
      nextFlowId := rfl
      flows := rfl
      delegations := rfl
      policy := .committed target rfl rfl rfl
      pending := fun h => by cases h
      committed := fun _ _ => rfl
      owner := rfl
      decided := rfl
      unrejected := map_resolved_ne_rejected }⟩

theorem insistAgoricOwned_spec {Q : Unit → PortfolioState δ → Prop}
    {E : String → PortfolioState δ → Prop} (hQ : Q ⟨⟩ s) (hE : ∀ message, E message s) :
    Wp insistAgoricOwned Q E s := by
  unfold insistAgoricOwned
  rw [wp_bind, wp_get]
  exact check_spec (fun _ => hQ) fun _ => hE _

theorem insistEvmOwned_spec {message : String} {Q : Unit → PortfolioState δ → Prop}
    {E : String → PortfolioState δ → Prop} (hQ : Q ⟨⟩ s) (hE : ∀ message, E message s) :
    Wp (insistEvmOwned message) Q E s := by
  unfold insistEvmOwned
  rw [wp_bind, wp_get]
  exact check_spec (fun _ => hQ) fun _ => hE _

theorem evmRebalance_spec {allocations : Option (List (PlaceRef × Nat))}
    (hfresh : ¬ s.flowsRunning.has s.nextFlowId) :
    Wp (evmRebalance allocations) (fun _ t => ∃ flow, OwnerStarted s t flow) (fun _ t => t = s)
      s := by
  have hstart {target : Option TargetAllocation} :
      Wp (startRebalance target none) (fun _ t => ∃ flow, OwnerStarted s t flow)
        (fun _ t => t = s) s :=
    wp_mono (startRebalance_spec hfresh) (fun _ _ h => h) fun _ _ h => h.elim
  unfold evmRebalance
  rw [wp_bind]
  refine insistEvmOwned_spec ?_ fun _ => rfl
  cases allocations with
  | some allocations =>
    simp only [wp_bind]
    exact check_spec (fun _ => hstart) fun _ => rfl
  | none =>
    simp only [wp_bind, wp_get]
    exact check_spec (fun _ => hstart) fun _ => rfl

theorem quiet_of_transfer (s : PortfolioState δ) (pending : Option PendingOwnerTransfer)
    (source : Option String) :
    Quiet s { s with pendingOwnerTransfer := pending, sourceAccountId := source } :=
  SameView.quiet ⟨⟨rfl, rfl, rfl, le_rfl⟩, rfl, fun _ => rfl⟩

theorem initiateTransfer_spec {evmAddress : String} {deadline now : Nat} :
    Wp (initiateTransfer evmAddress deadline now) (fun _ t => Quiet s t) (fun _ t => Quiet s t)
      s := by
  unfold initiateTransfer
  rw [wp_bind]
  refine insistAgoricOwned_spec ?_ fun _ => Quiet.refl s
  rw [wp_bind]
  refine check_spec (fun _ => ?_) fun _ => Quiet.refl s
  rw [wp_bind]
  refine check_spec (fun _ => ?_) fun _ => Quiet.refl s
  exact quiet_of_transfer s _ s.sourceAccountId

theorem wakeTransfer_spec {absValue : Nat} :
    Wp (wakeTransfer absValue) (fun _ t => Quiet s t) (fun _ t => Quiet s t) s := by
  unfold wakeTransfer
  rw [wp_bind, wp_get]
  cases s.pendingOwnerTransfer with
  | none => exact Quiet.refl s
  | some pending =>
    apply wp_ite
    · exact fun _ => quiet_of_transfer s none s.sourceAccountId
    · exact fun _ => Quiet.refl s

theorem completeTransfer_spec {signer : String} {chainId now : Nat} :
    Wp (completeTransfer signer chainId now) (fun _ t => Quiet s t) (fun _ t => Quiet s t) s := by
  unfold completeTransfer
  rw [wp_bind]
  refine insistAgoricOwned_spec ?_ fun _ => Quiet.refl s
  rw [wp_bind, wp_get]
  cases s.pendingOwnerTransfer with
  | none => exact Quiet.refl s
  | some pending =>
    simp only [wp_bind]
    refine check_spec (fun _ => ?_) fun _ => Quiet.refl s
    apply wp_ite
    · exact fun _ => quiet_of_transfer s none s.sourceAccountId
    · exact fun _ => quiet_of_transfer s none _

theorem ownerRequest_spec (hfresh : ¬ s.flowsRunning.has s.nextFlowId) (request : OwnerRequest) :
    Wp (ownerRequest request) (fun _ t => OwnerEffect request s t)
      (fun _ t => OwnerEffect request s t) s := by
  have hleft : OwnerEffect request s s := .inl (Quiet.refl s)
  have hstarts {detail : FlowDetail} {steps : Option FundsFlowPlan}
      (hstarts : request.startsFlow = true) (hagent : detail.agent = none)
      (hoperation : detail.operation = none) :
      Wp (some <$> startFlow detail steps : Facet δ _) (fun _ t => OwnerEffect request s t)
        (fun _ t => OwnerEffect request s t) s := by
    rw [wp_map]
    exact wp_mono (startFlow_owner hfresh hagent hoperation) (fun _ _ h => .inr (.inr ⟨hstarts, h⟩))
      fun _ _ h => h.elim
  have hchanges {m : Facet δ Unit} (hpolicy : request.startsFlow = false)
      (h : Wp m (fun _ t => PolicyChanged s t) (fun _ t => t = s) s) :
      Wp (m >>= fun _ => pure none : Facet δ (Option Nat)) (fun _ t => OwnerEffect request s t)
        (fun _ t => OwnerEffect request s t) s := by
    rw [wp_bind]
    exact wp_mono h (fun _ _ h => .inr (.inl ⟨hpolicy, h⟩)) fun _ _ h => h ▸ hleft
  have hquiet {m : Facet δ Unit} (h : Wp m (fun _ t => Quiet s t) (fun _ t => Quiet s t) s) :
      Wp (m >>= fun _ => pure none : Facet δ (Option Nat)) (fun _ t => OwnerEffect request s t)
        (fun _ t => OwnerEffect request s t) s := by
    rw [wp_bind]
    exact wp_mono h (fun _ _ => .inl) fun _ _ => .inl
  cases request with
  | evmChangePermissions agentId permissions =>
    unfold ownerRequest
    rw [wp_bind]
    refine insistEvmOwned_spec ?_ fun _ => hleft
    rw [wp_bind]
    refine wp_mono assertExternalDelegationTarget_spec ?_ fun _ _ h => h ▸ hleft
    rintro _ _ rfl
    exact hchanges rfl changePermissions_spec
  | evmRevoke agentId =>
    unfold ownerRequest
    rw [wp_bind]
    refine insistEvmOwned_spec ?_ fun _ => hleft
    rw [wp_bind]
    refine wp_mono assertExternalDelegationTarget_spec ?_ fun _ _ h => h ▸ hleft
    rintro _ _ rfl
    exact hchanges rfl revokeDelegation_spec
  | evmDeposit amount fromChain =>
    unfold ownerRequest
    rw [wp_bind]
    exact insistEvmOwned_spec (hstarts rfl rfl rfl) fun _ => hleft
  | evmRebalance allocations =>
    unfold ownerRequest
    rw [wp_map]
    exact wp_mono (evmRebalance_spec hfresh) (fun _ _ h => .inr (.inr ⟨rfl, h⟩)) fun _ _ h => h ▸ hleft
  | evmWithdraw amount toChain =>
    unfold ownerRequest
    rw [wp_bind]
    exact insistEvmOwned_spec (hstarts rfl rfl rfl) fun _ => hleft
  | offerRebalance flow | offerDeposit amount flow | offerWithdraw amount =>
    unfold ownerRequest
    rw [wp_bind]
    exact insistAgoricOwned_spec (hstarts rfl rfl rfl) fun _ => hleft
  | offerSimpleRebalance target flow =>
    unfold ownerRequest
    rw [wp_bind]
    refine insistAgoricOwned_spec ?_ fun _ => hleft
    rw [wp_map]
    exact wp_mono (startRebalance_spec hfresh) (fun _ _ h => .inr (.inr ⟨rfl, h⟩)) fun _ _ h => h.elim
  | setTargetAllocation allocation => exact .inr (.inl ⟨rfl, rfl, rfl, rfl⟩)
  | incrPolicyVersion => exact .inr (.inl ⟨rfl, rfl, rfl, rfl⟩)
  | startDeposit amount fromChain operation flow => exact hstarts rfl rfl rfl
  | initiateTransfer evmAddress deadline now => exact hquiet initiateTransfer_spec
  | wakeTransfer absValue => exact hquiet wakeTransfer_spec
  | completeTransfer signer chainId now => exact hquiet completeTransfer_spec

end Requests

end AgoricSdk.Portfolio
