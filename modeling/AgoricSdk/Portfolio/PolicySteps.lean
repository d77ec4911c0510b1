import AgoricSdk.Portfolio.Delegation
import AgoricSdk.Portfolio.PlanProjection

/-!
What a step can do to the flows, the delegations and the policy of a portfolio.
Every step is quiet, changes the policy, or touches one flow: it starts it or
gives it its plan, and may commit the target allocation of that flow.
-/

namespace AgoricSdk.Portfolio

open StateProgram

variable {δ : Type} {s t : PortfolioState δ}

section Effects

def delegationOf (s : PortfolioState δ) (agentId : Nat) : Option PortfolioAgentInfo :=
  s.delegations.bind fun delegations => delegations.lookup agentId

/-- The operation for which a rebalance was started. -/
def FlowDetail.operation : FlowDetail → Option InitiatingOperation
  | .rebalance detail => detail.initiatingOperation
  | _ => none

/-- The permission that an agent needs for a flow. -/
def FlowDetail.requires : FlowDetail → Permission
  | .claimRewards _ _ => .claimRewards
  | detail => if detail.operation.isSome then .allocation else .rebalance

/-- Is the plan for the flow good only for the policy at which it was requested? -/
def FlowDetail.versioned : FlowDetail → Bool
  | .rebalance detail => ¬ detail.targetAllocationAlreadyCommitted
  | _ => false

def FlowDetail.createdAt : FlowDetail → Option Nat
  | .rebalance detail => detail.createdAtPolicyVersion
  | _ => none

def RunningFlow.rejected (reason : String) (flow : RunningFlow) : RunningFlow where
  sync := some (.rejected reason)
  detail := if flow.detail.pendingTargetAllocation.isSome
    then flow.detail.withStatus (.error reason) else flow.detail

def RunningFlow.committed (version : Nat) (flow : RunningFlow) : RunningFlow :=
  { flow with detail := flow.detail.withStatus (.ok version) }

def RunningFlow.resolved (plan : FundsFlowPlan) (flow : RunningFlow) : RunningFlow :=
  { flow with sync := some (.resolved plan) }

/-- Within the limits of a mandate, as far as it has any. -/
structure WithinMandate (permissions : PortfolioPermissions) (targetAllocation : TargetAllocation)
    (observations : Option PlanObservations) : Prop where
  weight : ∀ limits bps, permissions.limits = some limits → limits.maxWeightBps = some bps →
    ∀ instrument portion, (instrument, portion) ∈ targetAllocation.entries →
      ¬ isInterChainAccountRef instrument → portion * 10000 ≤ bps * sumPortions targetAllocation
  tvl : ∀ limits minTvl, permissions.limits = some limits → limits.minVaultTvlUsd = some minTvl →
    ∀ instrument portion, (instrument, portion) ∈ targetAllocation.entries →
      ¬ isInterChainAccountRef instrument → portion ≠ 0 →
        ∃ seen tvl, observations = some seen ∧ seen.instrumentTvls.get instrument = some tvl ∧
          minTvl ≤ tvl
  share : ∀ limits bps, permissions.limits = some limits → limits.maxVaultShareBps = some bps →
    ∀ instrument portion, (instrument, portion) ∈ targetAllocation.entries →
      ¬ isInterChainAccountRef instrument → portion ≠ 0 →
        ∃ seen tvl, observations = some seen ∧ seen.instrumentTvls.get instrument = some tvl ∧
          seen.balances.values.sum * portion * 10000 ≤
            tvl * microUsdcPerUsd * sumPortions targetAllocation * bps

structure SamePolicy (s t : PortfolioState δ) : Prop where
  nextFlowId : t.nextFlowId = s.nextFlowId
  policyVersion : t.policyVersion = s.policyVersion
  targetAllocation : t.targetAllocation = s.targetAllocation
  rebalanceCount : s.rebalanceCount ≤ t.rebalanceCount

/-- No flow starts or gets a plan, and the policy stays. -/
structure Quiet (s t : PortfolioState δ) : Prop extends SamePolicy s t where
  flows : ∀ flowId flow, t.flowsRunning.lookup flowId = some flow →
    ∃ old, s.flowsRunning.lookup flowId = some old ∧
      (flow = old ∨ old.awaitingSteps ∧ ∃ reason, flow = old.rejected reason)
  delegations : ∀ agentId, delegationOf t agentId = delegationOf s agentId ∨
    ∃ info, delegationOf t agentId = some info ∧ info.state = .revoked

/-- The owner, or a grant, changes the policy and no flow. -/
structure PolicyChanged (s t : PortfolioState δ) : Prop where
  nextFlowId : t.nextFlowId = s.nextFlowId
  flows : t.flowsRunning = s.flowsRunning
  policyVersion : t.policyVersion = s.policyVersion + 1

/-- What happens to the policy while a flow is touched. -/
inductive PolicyPart (s t : PortfolioState δ) (flow : RunningFlow) : Prop where
  | kept : t.policyVersion = s.policyVersion → t.targetAllocation = s.targetAllocation →
      s.rebalanceCount ≤ t.rebalanceCount → PolicyPart s t flow
  | committed (targetAllocation : TargetAllocation) :
      flow.detail.operation = some { targetAllocation, status := .ok t.policyVersion } →
      t.targetAllocation = some targetAllocation → t.policyVersion = s.policyVersion + 1 →
      PolicyPart s t flow

def IsCommitted (flow : RunningFlow) (targetAllocation : TargetAllocation) : Prop :=
  ∃ version, flow.detail.operation = some { targetAllocation, status := .ok version }

structure Started (s t : PortfolioState δ) (flow : RunningFlow) : Prop where
  nextFlowId : t.nextFlowId = s.nextFlowId + 1
  flows : t.flowsRunning = s.flowsRunning.insert s.nextFlowId flow
  delegations : t.delegations = s.delegations
  pending : flow.detail.pendingTargetAllocation.isSome → flow.awaitingSteps
  policy : PolicyPart s t flow
  committed : ∀ targetAllocation, IsCommitted flow targetAllocation →
    t.policyVersion = s.policyVersion + 1

/-- An agent starts a flow with the permission that it needs. -/
structure AgentStarted (observations : Option PlanObservations) (s t : PortfolioState δ)
    (agentId : Nat) (info : PortfolioAgentInfo) (flow : RunningFlow) : Prop
    extends Started s t flow where
  agent : flow.detail.agent = some agentId
  delegation : delegationOf s agentId = some info
  active : info.state = .active
  permits : info.permissions.permits flow.detail.requires
  createdAt : flow.detail.versioned → flow.detail.createdAt = some s.policyVersion
  mandate : ∀ targetAllocation, IsCommitted flow targetAllocation →
    WithinMandate info.permissions targetAllocation observations
  /-- A flow that is refused at once has not changed the policy. -/
  refused : (∃ reason, flow.sync = some (.rejected reason)) →
    t.policyVersion = s.policyVersion ∧ t.targetAllocation = s.targetAllocation

/-- An agent's flow is as current as it must be, and within the mandate as it is now. -/
structure MandateHolds (s : PortfolioState δ) (flow : RunningFlow)
    (observations : Option PlanObservations) : Prop where
  createdAt : ∀ agentId, flow.detail.agent = some agentId → flow.detail.versioned →
    flow.detail.createdAt = some s.policyVersion
  mandate : ∀ agentId, flow.detail.agent = some agentId →
    ∃ info targetAllocation, delegationOf s agentId = some info ∧
      (flow.detail.pendingTargetAllocation <|> s.targetAllocation) = some targetAllocation ∧
      WithinMandate info.permissions targetAllocation observations

/-- A plan that passes the checks for the flow, those of its places apart. -/
structure PlanVetted (s : PortfolioState δ) (flowId : Nat) (flow : RunningFlow)
    (plan : FundsFlowPlan) (policyVersion rebalanceCount : Nat)
    (observations : Option PlanObservations) : Prop extends MandateHolds s flow observations where
  running : s.flowsRunning.lookup flowId = some flow
  awaiting : flow.awaitingSteps
  policyVersion : s.policyVersion = policyVersion
  rebalanceCount : s.rebalanceCount = rebalanceCount
  positions : vetNoNewPositions (s.targetAllocation.getD ∅) plan.flow = .ok ()

def PlacesFit (s : PortfolioState δ) (flow : RunningFlow) (plan : FundsFlowPlan) : Prop :=
  vetFlowPlanPlaces (flow.detail.context s.sourceAccountId.isSome) plan.flow = .ok ()

/-- The planner settles the plan of a flow that awaited it. -/
structure Planned (observations : Option PlanObservations) (s t : PortfolioState δ) (flowId : Nat)
    (old flow : RunningFlow) : Prop where
  nextFlowId : t.nextFlowId = s.nextFlowId
  flows : t.flowsRunning = s.flowsRunning.insert flowId flow
  delegations : t.delegations = s.delegations
  running : s.flowsRunning.lookup flowId = some old
  awaiting : old.awaitingSteps
  settled : ¬ flow.awaitingSteps
  policy : PolicyPart s t flow
  detail : flow.detail = old.detail ∧ ¬ flow.detail.pendingTargetAllocation.isSome ∧
      t.policyVersion = s.policyVersion ∨
    ∃ targetAllocation, old.detail.pendingTargetAllocation = some targetAllocation ∧
      flow.detail = old.detail.withStatus (.ok t.policyVersion) ∧
      t.policyVersion = s.policyVersion + 1 ∧
      ∀ agentId, old.detail.agent = some agentId →
        old.detail.createdAt = some s.policyVersion ∧
        ∃ info, delegationOf s agentId = some info ∧
          WithinMandate info.permissions targetAllocation observations

end Effects

section Checks

variable {α : Type} {Q : α → PortfolioState δ → Prop} {E : String → PortfolioState δ → Prop}

theorem check_spec {p : Prop} [Decidable p] {message : String}
    {Q : Unit → PortfolioState δ → Prop} (hQ : p → Q ⟨⟩ s) (hE : ¬ p → E message s) :
    Wp (check p message) Q E s := by
  unfold check
  exact wp_ite hQ hE

theorem ofExcept_spec {e : Except String α} (hQ : ∀ a, e = .ok a → Q a s)
    (hE : ∀ message, e = .error message → E message s) :
    Wp (MonadExcept.ofExcept e : Facet δ α) Q E s := by
  cases e with
  | ok a => exact hQ a rfl
  | error message => exact hE message rfl

theorem getFlow_spec {flowId : Nat} {Q : RunningFlow → PortfolioState δ → Prop}
    (hQ : ∀ flow, s.flowsRunning.lookup flowId = some flow → Q flow s)
    (hE : s.flowsRunning.lookup flowId = none → ∀ message, E message s) :
    Wp (getFlow flowId) Q E s := by
  unfold getFlow mapStoreGet
  rw [wp_bind, wp_get]
  cases h : s.flowsRunning.lookup flowId with
  | none => exact hE h _
  | some flow => exact hQ flow h

theorem getDelegation_spec {agentId : Nat} {noStore : String}
    {Q : PortfolioAgentInfo → PortfolioState δ → Prop}
    (hQ : ∀ info, delegationOf s agentId = some info → Q info s)
    (hE : ∀ message, E message s) : Wp (getDelegation agentId noStore) Q E s := by
  unfold getDelegation
  rw [wp_bind, wp_get]
  unfold delegationOf at hQ
  cases hstore : s.delegations with
  | none => exact hE _
  | some delegations =>
    rw [hstore, Option.bind_some] at hQ
    unfold mapStoreGet
    cases h : delegations.lookup agentId with
    | none =>
      simp only [h]
      exact hE _
    | some info =>
      simp only [h]
      exact hQ info h

theorem checkVersion_spec {versionPre countPre : Nat} {Q : Unit → PortfolioState δ → Prop}
    (hQ : s.policyVersion = versionPre → s.rebalanceCount = countPre → Q ⟨⟩ s)
    (hE : ¬ (s.policyVersion = versionPre ∧ s.rebalanceCount = countPre) →
      ∀ message, E message s) :
    Wp (checkVersion versionPre countPre) Q E s := by
  unfold checkVersion
  rw [wp_bind, wp_get, wp_bind]
  apply check_spec
  · intro hversion
    exact check_spec (hQ hversion) fun hcount => hE (fun h => hcount h.2) _
  · exact fun hversion => hE (fun h => hversion h.1) _

/-- A client that holds an active delegation with the permission. -/
structure Authorized (s : PortfolioState δ) (client : PortfolioDelegationClient) (agentId : Nat)
    (required : Option Permission) (info : PortfolioAgentInfo) : Prop where
  delegation : delegationOf s agentId = some info
  client : info.activeClient = some client
  active : info.state = .active
  permits : ∀ permission, required = some permission → info.permissions.permits permission

theorem getAuthorizedDelegation_spec {client : PortfolioDelegationClient} {agentId : Nat}
    {required : Option Permission} {Q : PortfolioAgentInfo → PortfolioState δ → Prop}
    (hQ : ∀ info, Authorized s client agentId required info → Q info s)
    (hE : ∀ message, E message s) :
    Wp (getAuthorizedDelegation client agentId required) Q E s := by
  unfold getAuthorizedDelegation
  rw [wp_bind, wp_get, wp_bind]
  apply getDelegation_spec _ hE
  intro info hinfo
  rw [wp_bind]
  refine check_spec (fun hclient => ?_) fun _ => hE _
  rw [wp_bind]
  refine check_spec (fun hactive => ?_) fun _ => hE _
  cases required with
  | none => exact hQ info ⟨hinfo, hclient, hactive, nofun⟩
  | some permission =>
    rw [wp_bind]
    refine check_spec (fun hpermits => ?_) fun _ => hE _
    exact hQ info ⟨hinfo, hclient, hactive, fun _ h => Option.some.inj h ▸ hpermits⟩

theorem insistLatestFlowFinished_spec {Q : Unit → PortfolioState δ → Prop}
    (hQ : ¬ s.flowsRunning.has (s.nextFlowId - 1) → Q ⟨⟩ s) (hE : ∀ message, E message s) :
    Wp insistLatestFlowFinished Q E s := by
  unfold insistLatestFlowFinished
  rw [wp_bind, wp_get]
  exact check_spec hQ fun _ => hE _

end Checks

section Mandates

variable {permissions : PortfolioPermissions} {targetAllocation : TargetAllocation}

theorem weight_of_assert (h : assertMandateForAllocation permissions targetAllocation = .ok ())
    (limits : AllocationLimits) (bps : Nat) (hlimits : permissions.limits = some limits)
    (hbps : limits.maxWeightBps = some bps) (instrument : PlaceRef) (portion : Nat)
    (hentry : (instrument, portion) ∈ targetAllocation.entries)
    (haccount : ¬ isInterChainAccountRef instrument) :
    portion * 10000 ≤ bps * sumPortions targetAllocation := by
  unfold assertMandateForAllocation at h
  rw [hlimits, Option.bind_some, hbps] at h
  have hone := forM_eq_ok.mp h _ hentry
  simp only [if_neg haccount] at hone
  obtain ⟨_, _, hweight⟩ := bind_eq_ok.mp hone
  exact insist_eq_ok.mp hweight

theorem seen_of_assert {observations : PlanObservations} {limits : AllocationLimits}
    (h : assertMandateForPlanObservations permissions targetAllocation observations = .ok ())
    (hlimits : permissions.limits = some limits)
    (hneeds : ¬ (limits.minVaultTvlUsd = none ∧ limits.maxVaultShareBps = none))
    {instrument : PlaceRef} {portion : Nat}
    (hentry : (instrument, portion) ∈ targetAllocation.entries)
    (haccount : ¬ isInterChainAccountRef instrument) (hportion : portion ≠ 0) :
    ∃ tvl, observations.instrumentTvls.get instrument = some tvl ∧
      (∀ minTvl, limits.minVaultTvlUsd = some minTvl → minTvl ≤ tvl) ∧
      ∀ bps, limits.maxVaultShareBps = some bps →
        observations.balances.values.sum * portion * 10000 ≤
          tvl * microUsdcPerUsd * sumPortions targetAllocation * bps := by
  unfold assertMandateForPlanObservations at h
  rw [hlimits] at h
  simp only [if_neg hneeds] at h
  have hone := forM_eq_ok.mp h _ hentry
  have hskip : ¬ (isInterChainAccountRef instrument ∨ portion = 0) := by
    rintro (hi | hp)
    · exact haccount hi
    · exact hportion hp
  simp only [if_neg hskip] at hone
  cases htvl : observations.instrumentTvls.get instrument with
  | none =>
    rw [htvl] at hone
    cases hone
  | some tvl =>
    rw [htvl] at hone
    refine ⟨tvl, rfl, ?_, ?_⟩
    · intro minTvl hmin
      rw [hmin] at hone
      obtain ⟨_, hmin, _⟩ := bind_eq_ok.mp hone
      exact insist_eq_ok.mp hmin
    · intro bps hbps
      rw [hbps] at hone
      cases hmin : limits.minVaultTvlUsd with
      | none =>
        rw [hmin] at hone
        obtain ⟨_, _, hshare⟩ := bind_eq_ok.mp hone
        exact insist_eq_ok.mp hshare
      | some minTvl =>
        rw [hmin] at hone
        obtain ⟨_, _, hshare⟩ := bind_eq_ok.mp hone
        obtain ⟨_, _, hshare⟩ := bind_eq_ok.mp hshare
        exact insist_eq_ok.mp hshare

theorem needsObservations_iff (permissions : PortfolioPermissions) :
    needsObservations permissions = true ↔ ∃ limits, permissions.limits = some limits ∧
      ¬ (limits.minVaultTvlUsd = none ∧ limits.maxVaultShareBps = none) := by
  unfold needsObservations
  cases permissions.limits with
  | none => simp
  | some limits =>
    obtain ⟨weight, tvl, share⟩ := limits
    cases tvl <;> cases share <;> simp

theorem withinMandate_of_asserts {observations : Option PlanObservations}
    (hweight : assertMandateForAllocation permissions targetAllocation = .ok ())
    (hseen : needsObservations permissions = true → ∃ seen, observations = some seen ∧
      assertMandateForPlanObservations permissions targetAllocation seen = .ok ()) :
    WithinMandate permissions targetAllocation observations where
  weight := weight_of_assert hweight
  tvl := by
    intro limits minTvl hlimits hmin instrument portion hentry haccount hportion
    have hneeds : ¬ (limits.minVaultTvlUsd = none ∧ limits.maxVaultShareBps = none) := by
      simp [hmin]
    obtain ⟨seen, hobserved, hassert⟩ :=
      hseen ((needsObservations_iff permissions).mpr ⟨limits, hlimits, hneeds⟩)
    obtain ⟨tvl, htvl, hle, -⟩ := seen_of_assert hassert hlimits hneeds hentry haccount hportion
    exact ⟨seen, tvl, hobserved, htvl, hle minTvl hmin⟩
  share := by
    intro limits bps hlimits hbps instrument portion hentry haccount hportion
    have hneeds : ¬ (limits.minVaultTvlUsd = none ∧ limits.maxVaultShareBps = none) := by
      simp [hbps]
    obtain ⟨seen, hobserved, hassert⟩ :=
      hseen ((needsObservations_iff permissions).mpr ⟨limits, hlimits, hneeds⟩)
    obtain ⟨tvl, htvl, -, hle⟩ := seen_of_assert hassert hlimits hneeds hentry haccount hportion
    exact ⟨seen, tvl, hobserved, htvl, hle bps hbps⟩

theorem withinMandate_of_vetted {plan : Option FundsFlowPlan}
    {observations : Option PlanObservations}
    (h : vetAllocationPlan permissions targetAllocation plan observations = .ok true) :
    WithinMandate permissions targetAllocation observations := by
  unfold vetAllocationPlan at h
  obtain ⟨_, hweight, h⟩ := bind_eq_ok.mp h
  apply withinMandate_of_asserts hweight
  intro hneeds
  cases plan with
  | none =>
    have hnot := Except.ok.inj h
    simp [hneeds] at hnot
  | some plan =>
    cases observations with
    | none => cases h
    | some seen =>
      obtain ⟨_, _, h⟩ := bind_eq_ok.mp h
      obtain ⟨_, hseen, _⟩ := bind_eq_ok.mp h
      exact ⟨seen, rfl, hseen⟩

end Mandates

section Facets

def PortfolioState.withFlow (s : PortfolioState δ) (flowId : Nat) (flow : RunningFlow) :
    PortfolioState δ :=
  { s with flowsRunning := s.flowsRunning.insert flowId flow }

def PortfolioState.started (s : PortfolioState δ) (flow : RunningFlow) : PortfolioState δ :=
  { s with
    nextFlowId := s.nextFlowId + 1
    flowsRunning := s.flowsRunning.insert s.nextFlowId flow
    accounts := releasePendingAccounts s.accounts }

def PortfolioState.withPolicy (s : PortfolioState δ) (targetAllocation : Option TargetAllocation) :
    PortfolioState δ :=
  { s with targetAllocation, policyVersion := s.policyVersion + 1, rebalanceCount := 0 }

def PortfolioState.counted (s : PortfolioState δ) : PortfolioState δ :=
  { s with rebalanceCount := s.rebalanceCount + 1 }

variable {E : String → PortfolioState δ → Prop}

theorem startFlow_spec {detail : FlowDetail} {steps : Option FundsFlowPlan}
    {Q : Nat → PortfolioState δ → Prop} (hfresh : ¬ s.flowsRunning.has s.nextFlowId)
    (hQ : Q s.nextFlowId (s.started { sync := steps.map .resolved, detail })) :
    Wp (startFlow detail steps) Q E s := by
  unfold startFlow setFlow
  simp only [wp_bind, wp_get, wp_modify, wp_pure]
  apply check_spec
  · exact fun _ => hQ
  · exact fun h => absurd hfresh h

theorem updateTargetAllocation_spec {allocation : TargetAllocation}
    {Q : Nat → PortfolioState δ → Prop}
    (hQ : Q (s.policyVersion + 1) (s.withPolicy (some allocation))) :
    Wp (updateTargetAllocation allocation) Q E s := hQ

theorem submitVersion_spec {versionPre countPre : Nat} {Q : Unit → PortfolioState δ → Prop}
    (hQ : s.policyVersion = versionPre → s.rebalanceCount = countPre → Q ⟨⟩ s.counted)
    (hE : ¬ (s.policyVersion = versionPre ∧ s.rebalanceCount = countPre) →
      ∀ message, E message s) :
    Wp (submitVersion versionPre countPre) Q E s := by
  unfold submitVersion
  rw [wp_bind]
  exact checkVersion_spec hQ hE

theorem rejectFlowPlan_spec {flowId : Nat} {reason : String} {Q : Unit → PortfolioState δ → Prop}
    (hleft : (∀ flow, s.flowsRunning.lookup flowId = some flow → ¬ flow.awaitingSteps) → Q ⟨⟩ s)
    (hrejected : ∀ flow, s.flowsRunning.lookup flowId = some flow → flow.awaitingSteps →
      Q ⟨⟩ (s.withFlow flowId (flow.rejected reason))) :
    Wp (rejectFlowPlan flowId reason) Q E s := by
  unfold rejectFlowPlan setFlow
  rw [wp_bind, wp_get]
  cases hflow : s.flowsRunning.lookup flowId with
  | none => exact hleft fun _ h => by simp [hflow] at h
  | some flow =>
    apply wp_ite
    · intro hsettled
      exact hleft fun _ h => Option.some.inj (hflow.symm.trans h) ▸ hsettled
    · intro hawaiting
      exact hrejected flow hflow (not_not.mp hawaiting)

theorem resolvePendingPolicy_spec {flowId version : Nat} {flow : RunningFlow}
    {targetAllocation : TargetAllocation} {Q : Unit → PortfolioState δ → Prop}
    (hflow : s.flowsRunning.lookup flowId = some flow)
    (hpending : flow.detail.pendingTargetAllocation = some targetAllocation)
    (hQ : Q ⟨⟩ (s.withFlow flowId (flow.committed version))) :
    Wp (resolvePendingPolicy flowId version) Q E s := by
  unfold resolvePendingPolicy
  rw [wp_bind]
  apply getFlow_spec
  · intro found hfound
    have heq : found = flow := Option.some.inj (hfound.symm.trans hflow)
    subst heq
    obtain ⟨sync, detail⟩ := found
    cases detail with
    | rebalance detail =>
      obtain ⟨agent, memo, operation, createdAt⟩ := detail
      cases operation with
      | none => cases hpending
      | some operation =>
        rw [wp_bind]
        apply check_spec
        · exact fun _ => hQ
        · intro hnot
          simp [FlowDetail.pendingTargetAllocation, Option.filter, hnot] at hpending
    | _ => cases hpending
  · intro hnone
    simp [hnone] at hflow

theorem resolveFlowPlan_spec {flowId : Nat} {plan : FundsFlowPlan}
    {Q : Unit → PortfolioState δ → Prop}
    (hE : (∀ flow, s.flowsRunning.lookup flowId = some flow → ¬ flow.awaitingSteps) →
      ∀ message, E message s)
    (hunfit : ∀ flow reason, s.flowsRunning.lookup flowId = some flow → flow.awaitingSteps →
      vetFlowPlanPlaces (flow.detail.context s.sourceAccountId.isSome) plan.flow = .error reason →
        E reason (s.withFlow flowId (flow.rejected reason)))
    (hQ : ∀ flow, s.flowsRunning.lookup flowId = some flow → flow.awaitingSteps →
      vetFlowPlanPlaces (flow.detail.context s.sourceAccountId.isSome) plan.flow = .ok () →
        Q ⟨⟩ (s.withFlow flowId (flow.resolved plan))) :
    Wp (resolveFlowPlan flowId plan) Q E s := by
  unfold resolveFlowPlan
  rw [wp_bind]
  apply getFlow_spec _ fun hnone => hE fun _ h => by simp [hnone] at h
  intro flow hflow
  rw [wp_bind]
  refine check_spec (fun hawaiting => ?_) fun hsettled =>
    hE (fun _ h => Option.some.inj (hflow.symm.trans h) ▸ hsettled) _
  rw [wp_bind, wp_get]
  cases hplaces : vetFlowPlanPlaces (flow.detail.context s.sourceAccountId.isSome) plan.flow with
  | ok _ => exact hQ flow hflow hawaiting hplaces
  | error reason =>
    rw [wp_bind]
    apply rejectFlowPlan_spec
    · exact fun hsettled => absurd hawaiting (hsettled flow hflow)
    · intro found hfound _
      have heq : found = flow := Option.some.inj (hfound.symm.trans hflow)
      subst heq
      exact hunfit found reason hflow hawaiting hplaces

theorem checkCreatedAt_spec {detail : FlowDetail} {Q : Unit → PortfolioState δ → Prop}
    (hQ : (detail.versioned → detail.createdAt = some s.policyVersion) → Q ⟨⟩ s)
    (hE : ∀ message, E message s) : Wp (checkCreatedAt detail) Q E s := by
  unfold checkCreatedAt
  cases detail with
  | rebalance rebalance =>
    simp only [wp_bind, wp_get]
    refine check_spec (fun hcurrent => hQ fun hversioned => ?_) fun _ => hE _
    unfold FlowDetail.versioned at hversioned
    simp only [decide_eq_true_eq] at hversioned
    exact hcurrent.resolve_left hversioned
  | _ =>
    apply hQ
    intro hversioned
    cases hversioned

theorem assertMandate_ok {permissions : PortfolioPermissions} {targetAllocation : TargetAllocation}
    {observations : Option PlanObservations}
    (h : assertMandate permissions targetAllocation observations = .ok ()) :
    WithinMandate permissions targetAllocation observations := by
  unfold assertMandate at h
  obtain ⟨_, hweight, h⟩ := bind_eq_ok.mp h
  apply withinMandate_of_asserts hweight
  intro hneeds
  rw [if_pos hneeds] at h
  cases observations with
  | none => cases h
  | some seen => exact ⟨seen, rfl, h⟩

theorem commitPendingTargetAllocation_spec {flowId : Nat} {flow : RunningFlow}
    {Q : Unit → PortfolioState δ → Prop} (hflow : s.flowsRunning.lookup flowId = some flow)
    (hkept : flow.detail.pendingTargetAllocation = none → Q ⟨⟩ s)
    (hcommitted : ∀ targetAllocation,
      flow.detail.pendingTargetAllocation = some targetAllocation →
        Q ⟨⟩ ((s.withPolicy (some targetAllocation)).withFlow flowId
          (flow.committed (s.policyVersion + 1)))) :
    Wp (commitPendingTargetAllocation flowId flow.detail) Q E s := by
  unfold commitPendingTargetAllocation
  cases hpending : flow.detail.pendingTargetAllocation with
  | none => exact hkept hpending
  | some targetAllocation =>
    simp only [wp_bind]
    apply updateTargetAllocation_spec
    exact resolvePendingPolicy_spec hflow hpending (hcommitted targetAllocation hpending)

theorem validateAndCommitPlanPolicy_spec {flowId versionPre countPre : Nat}
    {observations : Option PlanObservations} {Q : PortfolioSyncState → PortfolioState δ → Prop}
    (hpending : ∀ flow, s.flowsRunning.lookup flowId = some flow →
      flow.detail.pendingTargetAllocation.isSome → flow.detail.agent.isSome)
    (hE : ∀ message, E message s)
    (hkept : ∀ flow, s.flowsRunning.lookup flowId = some flow → s.policyVersion = versionPre →
      s.rebalanceCount = countPre → MandateHolds s flow observations →
      flow.detail.pendingTargetAllocation = none →
        Q ⟨s.policyVersion, s.rebalanceCount⟩ s)
    (hcommitted : ∀ flow targetAllocation, s.flowsRunning.lookup flowId = some flow →
      s.policyVersion = versionPre → s.rebalanceCount = countPre →
      MandateHolds s flow observations →
      flow.detail.pendingTargetAllocation = some targetAllocation →
        Q ⟨s.policyVersion + 1, 0⟩ ((s.withPolicy (some targetAllocation)).withFlow flowId
          (flow.committed (s.policyVersion + 1)))) :
    Wp (validateAndCommitPlanPolicy flowId observations versionPre countPre) Q E s := by
  unfold validateAndCommitPlanPolicy
  rw [wp_bind]
  apply checkVersion_spec _ fun _ => hE
  intro hversion hcount
  rw [wp_bind]
  apply getFlow_spec _ fun _ => hE
  intro flow hflow
  replace hpending := hpending flow hflow
  replace hkept := hkept flow hflow hversion hcount
  replace hcommitted := fun targetAllocation => hcommitted flow targetAllocation hflow hversion hcount
  cases hagent : flow.detail.agent with
  | none =>
    simp only [hagent]
    refine hkept ⟨fun agentId h => ?_, fun agentId h => ?_⟩ ?_
    · simp [hagent] at h
    · simp [hagent] at h
    · simpa [hagent] using hpending
  | some agentId =>
    simp only [hagent]
    rw [wp_bind]
    refine checkCreatedAt_spec (fun hcreatedAt => ?_) hE
    rw [wp_bind]
    refine getDelegation_spec (fun info hinfo => ?_) hE
    rw [wp_bind, wp_get]
    cases htarget : flow.detail.pendingTargetAllocation <|> s.targetAllocation with
    | none => exact hE _
    | some targetAllocation =>
      simp only [wp_bind]
      refine ofExcept_spec (fun _ hmandate => ?_) fun message _ => hE message
      have hholds : MandateHolds s flow observations := by
        refine ⟨fun _ _ => hcreatedAt, fun agentId' h => ?_⟩
        have hsame : agentId' = agentId := Option.some.inj (h.symm.trans hagent)
        subst hsame
        exact ⟨info, targetAllocation, hinfo, htarget, assertMandate_ok hmandate⟩
      exact commitPendingTargetAllocation_spec hflow (hkept hholds)
        fun pending hpending => hcommitted pending hholds hpending

end Facets

section QuietSteps

@[simp] theorem not_awaiting_rejected (reason : String) (flow : RunningFlow) :
    ¬ (flow.rejected reason).awaitingSteps := by
  simp [RunningFlow.rejected, RunningFlow.awaitingSteps]

@[simp] theorem not_awaiting_resolved (plan : FundsFlowPlan) (flow : RunningFlow) :
    ¬ (flow.resolved plan).awaitingSteps := by
  simp [RunningFlow.resolved, RunningFlow.awaitingSteps]

theorem plan_of_resolved {plan accepted : FundsFlowPlan} {flow : RunningFlow}
    (h : (flow.resolved plan).sync = some (.resolved accepted)) : accepted = plan := by
  cases h
  rfl

theorem Quiet.refl (s : PortfolioState δ) : Quiet s s where
  nextFlowId := rfl
  flows := fun _ flow h => ⟨flow, h, .inl rfl⟩
  policyVersion := rfl
  targetAllocation := rfl
  rebalanceCount := le_rfl
  delegations := fun _ => .inl rfl

theorem Quiet.trans {u : PortfolioState δ} (h : Quiet s t) (h' : Quiet t u) : Quiet s u where
  nextFlowId := h'.nextFlowId.trans h.nextFlowId
  flows := by
    intro flowId flow hflow
    obtain ⟨mid, hmid, hlater⟩ := h'.flows flowId flow hflow
    obtain ⟨old, hold, hmid'⟩ := h.flows flowId mid hmid
    refine ⟨old, hold, ?_⟩
    rcases hlater with rfl | ⟨hawaiting, hlater⟩
    · exact hmid'
    · rcases hmid' with rfl | ⟨_, reason, rfl⟩
      · exact .inr ⟨hawaiting, hlater⟩
      · exact absurd hawaiting (not_awaiting_rejected reason old)
  policyVersion := h'.policyVersion.trans h.policyVersion
  targetAllocation := h'.targetAllocation.trans h.targetAllocation
  rebalanceCount := h.rebalanceCount.trans h'.rebalanceCount
  delegations := by
    intro agentId
    rcases h'.delegations agentId with hsame | hrevoked
    · rw [hsame]
      exact h.delegations agentId
    · exact .inr hrevoked

theorem quiet_counted (s : PortfolioState δ) : Quiet s s.counted :=
  { Quiet.refl s with rebalanceCount := Nat.le_succ _ }

theorem SamePolicy.withFlow (h : SamePolicy s t) (flowId : Nat) (flow : RunningFlow) :
    SamePolicy s (t.withFlow flowId flow) := ⟨h.1, h.2, h.3, h.4⟩

theorem quiet_rejected {flowId : Nat} {flow : RunningFlow} (reason : String)
    (hflow : s.flowsRunning.lookup flowId = some flow) (hawaiting : flow.awaitingSteps) :
    Quiet s (s.withFlow flowId (flow.rejected reason)) := by
  refine { Quiet.refl s with flows := ?_ }
  intro id found hfound
  unfold PortfolioState.withFlow at hfound
  rw [Table.lookup_insert] at hfound
  by_cases hid : id = flowId
  · rw [if_pos hid] at hfound
    cases hfound
    exact ⟨flow, hid ▸ hflow, .inr ⟨hawaiting, reason, rfl⟩⟩
  · rw [if_neg hid] at hfound
    exact ⟨found, hfound, .inl rfl⟩

/-- The policy version and the count have grown, in this order. -/
def Later (s t : PortfolioState δ) : Prop :=
  s.policyVersion < t.policyVersion ∨
    s.policyVersion = t.policyVersion ∧ s.rebalanceCount < t.rebalanceCount

theorem later_counted (s : PortfolioState δ) : Later s s.counted := .inr ⟨rfl, Nat.lt_succ_self _⟩

end QuietSteps

section PlannerCalls

variable {flowId policyVersion rebalanceCount : Nat} {plan : FundsFlowPlan}
  {observations : Option PlanObservations}

/-- What the planner's answer for a flow does: a plan that passes the checks may commit the
allocation of the flow, and is accepted if its places fit too. -/
def Answered (observations : Option PlanObservations) (flowId : Nat) (plan : FundsFlowPlan)
    (policyVersion rebalanceCount : Nat) (s t : PortfolioState δ) : Prop :=
  Later s t ∧ (Quiet s t ∨ ∃ old flow, Planned observations s t flowId old flow ∧
    PlanVetted s flowId old plan policyVersion rebalanceCount observations ∧
    ∀ accepted, flow.sync = some (.resolved accepted) → accepted = plan ∧ PlacesFit s old plan)

theorem context_withStatus (status : OperationStatus) (evm : Bool) (detail : FlowDetail) :
    (detail.withStatus status).context evm = detail.context evm := by
  cases detail <;> rfl

theorem pending_withStatus_ok (version : Nat) (detail : FlowDetail) :
    (detail.withStatus (.ok version)).pendingTargetAllocation = none := by
  cases detail with
  | rebalance detail =>
    obtain ⟨agent, memo, operation, createdAt⟩ := detail
    cases operation <;> rfl
  | _ => rfl

theorem versioned_of_pending {targetAllocation : TargetAllocation} {detail : FlowDetail}
    (h : detail.pendingTargetAllocation = some targetAllocation) : detail.versioned := by
  cases detail with
  | rebalance detail =>
    obtain ⟨agent, memo, operation, createdAt⟩ := detail
    cases operation with
    | none => cases h
    | some operation =>
      obtain ⟨target, status⟩ := operation
      cases status with
      | pending => rfl
      | _ => cases h
  | _ => cases h

theorem operation_of_pending {targetAllocation : TargetAllocation} {detail : FlowDetail}
    (h : detail.pendingTargetAllocation = some targetAllocation) :
    detail.operation = some { targetAllocation, status := .pending } := by
  cases detail with
  | rebalance detail =>
    obtain ⟨agent, memo, operation, createdAt⟩ := detail
    cases operation with
    | none => cases h
    | some operation =>
      obtain ⟨target, status⟩ := operation
      cases status with
      | pending =>
        cases h
        rfl
      | _ => cases h
  | _ => cases h

theorem operation_withStatus {targetAllocation : TargetAllocation} {detail : FlowDetail}
    (status : OperationStatus) (h : detail.pendingTargetAllocation = some targetAllocation) :
    (detail.withStatus status).operation = some { targetAllocation, status } := by
  cases detail with
  | rebalance detail =>
    have hoperation : detail.initiatingOperation = some { targetAllocation, status := .pending } :=
      operation_of_pending h
    simp [FlowDetail.withStatus, FlowDetail.operation, hoperation]
  | _ => cases h

theorem agent_withStatus (status : OperationStatus) (detail : FlowDetail) :
    (detail.withStatus status).agent = detail.agent := by
  cases detail <;> rfl

theorem requires_withStatus (status : OperationStatus) (detail : FlowDetail) :
    (detail.withStatus status).requires = detail.requires := by
  cases detail with
  | rebalance detail =>
    obtain ⟨agent, memo, operation, createdAt⟩ := detail
    cases operation <;> rfl
  | _ => rfl

theorem requires_of_operation {operation : InitiatingOperation} {detail : FlowDetail}
    (h : detail.operation = some operation) : detail.requires = .allocation := by
  cases detail with
  | rebalance => simp [FlowDetail.requires, h]
  | _ => cases h

theorem resolve_kept (hversion : s.policyVersion = policyVersion)
    (hcount : s.rebalanceCount = rebalanceCount) {running : RunningFlow}
    (hrunning : s.flowsRunning.lookup flowId = some running)
    (hholds : MandateHolds s running observations)
    (hpositions : vetNoNewPositions (s.targetAllocation.getD ∅) plan.flow = .ok ())
    (hpending : running.detail.pendingTargetAllocation = none) :
    Wp (resolveFlowPlan flowId plan)
      (fun _ => Answered observations flowId plan policyVersion rebalanceCount s)
      (fun _ => Answered observations flowId plan policyVersion rebalanceCount s) s.counted := by
  apply resolveFlowPlan_spec
  · exact fun _ _ => ⟨later_counted s, .inl (quiet_counted s)⟩
  · intro flow reason hflow hawaiting _
    exact ⟨later_counted s, .inl ((quiet_counted s).trans (quiet_rejected reason hflow hawaiting))⟩
  · intro flow hflow hawaiting hplaces
    have hsame : running = flow := Option.some.inj (hrunning.symm.trans hflow)
    subst hsame
    have hvetted : PlanVetted s flowId running plan policyVersion rebalanceCount observations :=
      { hholds with
        running := hflow
        awaiting := hawaiting
        policyVersion := hversion
        rebalanceCount := hcount
        positions := hpositions }
    refine ⟨later_counted s, .inr ⟨running, _, {
      nextFlowId := rfl
      flows := rfl
      delegations := rfl
      running := hflow
      awaiting := hawaiting
      settled := not_awaiting_resolved plan running
      policy := .kept rfl rfl (Nat.le_succ _)
      detail := .inl ⟨rfl, ?_, rfl⟩ }, hvetted, fun _ h => ⟨plan_of_resolved h, hplaces⟩⟩⟩
    show ¬ running.detail.pendingTargetAllocation.isSome
    simp [hpending]

theorem resolve_committed (hversion : s.policyVersion = policyVersion)
    (hcount : s.rebalanceCount = rebalanceCount) {running : RunningFlow}
    {targetAllocation : TargetAllocation}
    (hrunning : s.flowsRunning.lookup flowId = some running) (hawaiting : running.awaitingSteps)
    (hholds : MandateHolds s running observations)
    (hpositions : vetNoNewPositions (s.targetAllocation.getD ∅) plan.flow = .ok ())
    (hpending : running.detail.pendingTargetAllocation = some targetAllocation) :
    Wp (resolveFlowPlan flowId plan)
      (fun _ => Answered observations flowId plan policyVersion rebalanceCount s)
      (fun _ => Answered observations flowId plan policyVersion rebalanceCount s)
      ((s.withPolicy (some targetAllocation)).withFlow flowId
        (running.committed (s.policyVersion + 1))).counted := by
  have hmandate (agentId : Nat) (h : running.detail.agent = some agentId) :
      running.detail.createdAt = some s.policyVersion ∧
      ∃ info, delegationOf s agentId = some info ∧
        WithinMandate info.permissions targetAllocation observations := by
    obtain ⟨info, target, hinfo, htarget, hwithin⟩ := hholds.mandate agentId h
    rw [hpending] at htarget
    exact ⟨hholds.createdAt agentId h (versioned_of_pending hpending), info, hinfo,
      Option.some.inj htarget ▸ hwithin⟩
  let t := ((s.withPolicy (some targetAllocation)).withFlow flowId
    (running.committed (s.policyVersion + 1))).counted
  have hflow : t.flowsRunning.lookup flowId = some (running.committed (s.policyVersion + 1)) := by
    show ((s.flowsRunning.insert flowId _).lookup flowId) = _
    rw [Table.lookup_insert, if_pos rfl]
  have hlater : Later s t := .inl (Nat.lt_succ_self _)
  have hvetted : PlanVetted s flowId running plan policyVersion rebalanceCount observations :=
    { hholds with
      running := hrunning
      awaiting := hawaiting
      policyVersion := hversion
      rebalanceCount := hcount
      positions := hpositions }
  have hplanned (flow : RunningFlow) (hsettled : ¬ flow.awaitingSteps)
      (hdetail : flow.detail = running.detail.withStatus (.ok (s.policyVersion + 1))) :
      Planned observations s (t.withFlow flowId flow) flowId running flow := by
    refine {
      nextFlowId := rfl
      flows := Table.insert_insert_self ..
      delegations := rfl
      running := hrunning
      awaiting := hawaiting
      settled := hsettled
      policy := .committed targetAllocation ?_ rfl rfl
      detail := .inr ⟨targetAllocation, hpending, hdetail, rfl, hmandate⟩ }
    rw [hdetail]
    exact operation_withStatus _ hpending
  apply resolveFlowPlan_spec
  · exact fun h => absurd (show (running.committed _).awaitingSteps from hawaiting) (h _ hflow)
  · intro flow reason hfound hflowAwaiting _
    have hsame := Option.some.inj (hflow.symm.trans hfound)
    subst hsame
    refine ⟨hlater, .inr ⟨running, _, hplanned _ (not_awaiting_rejected reason _) ?_, hvetted,
      nofun⟩⟩
    show (if (running.detail.withStatus _).pendingTargetAllocation.isSome then _ else _) = _
    rw [pending_withStatus_ok]
    rfl
  · intro flow hfound hflowAwaiting hplaces
    have hsame := Option.some.inj (hflow.symm.trans hfound)
    subst hsame
    have hfit : PlacesFit s running plan := by
      unfold PlacesFit
      rw [← context_withStatus (.ok (s.policyVersion + 1))]
      exact hplaces
    exact ⟨hlater, .inr ⟨running, _, hplanned _ (not_awaiting_resolved plan _) rfl, hvetted,
      fun _ h => ⟨plan_of_resolved h, hfit⟩⟩⟩

theorem resolvePlan_spec
    (hpending : ∀ flow, s.flowsRunning.lookup flowId = some flow →
      flow.detail.pendingTargetAllocation.isSome → flow.awaitingSteps ∧ flow.detail.agent.isSome) :
    Wp (resolvePlan flowId plan policyVersion rebalanceCount observations)
      (fun _ => Answered observations flowId plan policyVersion rebalanceCount s)
      (fun _ t => t = s ∨ Answered observations flowId plan policyVersion rebalanceCount s t) s := by
  unfold resolvePlan vetPlannerPlan
  simp only [wp_bind, wp_get, wp_attempt]
  refine ofExcept_spec (fun _ hpositions => ?_) fun _ _ => .inl rfl
  apply validateAndCommitPlanPolicy_spec (fun flow hflow h => (hpending flow hflow h).2)
  · intro reason
    refine submitVersion_spec (fun _ _ => ?_) fun _ _ => .inl rfl
    apply rejectFlowPlan_spec
    · exact fun _ => ⟨later_counted s, .inl (quiet_counted s)⟩
    · intro flow hflow hawaiting
      exact ⟨later_counted s,
        .inl ((quiet_counted s).trans (quiet_rejected reason hflow hawaiting))⟩
  · intro flow hflow hversion hcount hholds hnone
    refine submitVersion_spec (fun _ _ => ?_) fun _ _ => .inl rfl
    exact wp_mono (resolve_kept hversion hcount hflow hholds hpositions hnone)
      (fun _ _ h => h) fun _ _ h => .inr h
  · intro flow targetAllocation hflow hversion hcount hholds hsome
    obtain ⟨hawaiting, hagent⟩ := hpending flow hflow (hsome ▸ rfl)
    refine submitVersion_spec (fun _ _ => ?_) fun h => absurd ⟨rfl, rfl⟩ h
    exact wp_mono (resolve_committed hversion hcount hflow hawaiting hholds hpositions hsome)
      (fun _ _ h => h) fun _ _ h => .inr h

theorem rejectPlan_spec {reason : String} :
    Wp (rejectPlan flowId reason policyVersion rebalanceCount)
      (fun _ t => Later s t ∧ Quiet s t) (fun _ t => t = s) s := by
  unfold rejectPlan
  rw [wp_bind]
  refine submitVersion_spec (fun _ _ => ?_) fun _ _ => rfl
  apply rejectFlowPlan_spec
  · exact fun _ => ⟨later_counted s, quiet_counted s⟩
  · intro flow hflow hawaiting
    exact ⟨later_counted s, (quiet_counted s).trans (quiet_rejected reason hflow hawaiting)⟩

end PlannerCalls

end AgoricSdk.Portfolio
