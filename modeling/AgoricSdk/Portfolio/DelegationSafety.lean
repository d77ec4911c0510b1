import AgoricSdk.Portfolio.PortfolioRuns

/-!
Delegation stays within the current mandate, in every run in which no plan is
given for a flow that is not tied to a policy version after the delegation of its
agent has changed.
-/

namespace AgoricSdk.Portfolio

open StateProgram

variable {δ : Type}

/-- The step commits the allocation of this flow. -/
structure Commits (w : PortfolioWorld δ) (a : Action δ) (flowId : Nat) (flow : RunningFlow)
    (targetAllocation : TargetAllocation) : Prop where
  running : (w.step a).portfolio.flowsRunning.lookup flowId = some flow
  committed : IsCommitted flow targetAllocation
  before : ∀ old, w.portfolio.flowsRunning.lookup flowId = some old →
    ¬ IsCommitted old targetAllocation

/-- The step accepts a plan for this flow. -/
structure Accepts (w : PortfolioWorld δ) (a : Action δ) (flowId : Nat) (flow : RunningFlow) : Prop where
  running : (w.step a).portfolio.flowsRunning.lookup flowId = some flow
  resolved : ∃ plan, flow.sync = some (.resolved plan)
  before : ∀ old, w.portfolio.flowsRunning.lookup flowId = some old → old.awaitingSteps

/-- The delegation is active, with the permissions that it had. -/
def Unchanged (mandate info : PortfolioAgentInfo) : Prop :=
  info.state = .active ∧ info.permissions = mandate.permissions

structure WithinCurrentMandate (w : PortfolioWorld δ) (a : Action δ) : Prop where
  /-- A delegated call succeeds only with the authority for it, and no newer flow running. -/
  delegated : IsDelegated a → ∀ flowId c, perform a w.contract = .ok flowId c →
    ∃ client permission info, delegatedBy w.contract a = some (client, permission) ∧
      Authorized w.portfolio client client.agentId (some permission) info ∧
      ¬ w.portfolio.flowsRunning.has (w.portfolio.nextFlowId - 1)
  /-- Agents and the planner change the target allocation only by committing that of a flow. -/
  allocated : IsDelegated a ∨ (∃ flowId plan version count observations,
      a = .resolvePlan flowId plan version count observations) →
    (w.step a).portfolio.targetAllocation ≠ w.portfolio.targetAllocation →
      ∃ flowId flow targetAllocation, Commits w a flowId flow targetAllocation ∧
        (w.step a).portfolio.targetAllocation = some targetAllocation
  /-- An agent's allocation is committed only within the mandate in force. -/
  committed : ∀ flowId flow targetAllocation agentId, Commits w a flowId flow targetAllocation →
    flow.detail.agent = some agentId →
      ∃ info, delegationOf w.portfolio agentId = some info ∧ info.state = .active ∧
        info.permissions.permits .allocation ∧
        WithinMandate info.permissions targetAllocation (observationsOf w.contract a)
  /-- A plan is accepted for an agent's flow only under the delegation with which it was started. -/
  accepted : ∀ flowId flow agentId, Accepts w a flowId flow → flow.detail.agent = some agentId →
    ∃ info mandate, delegationOf (w.step a).portfolio agentId = some info ∧
      info.permissions.permits flow.detail.requires ∧
      (w.step a).mandates flowId = some mandate ∧ Unchanged mandate info

/-- A plan that passes the checks is given for an agent's claim of rewards, or for its
allocation that is committed already, only if its delegation is active with the permissions
with which the flow was started; and so for all its flows if the delivery of its grant failed. -/
def PlannedUnchanged (w : PortfolioWorld δ) : Action δ → Prop
  | .resolvePlan flowId plan version count observations =>
    ∀ flow agentId info, PlanVetted w.portfolio flowId flow plan version count observations →
      (flow.detail.pendingTargetAllocation.isSome ∨ PlacesFit w.portfolio flow plan) →
      flow.detail.agent = some agentId → delegationOf w.portfolio agentId = some info →
      (flow.detail.versioned → info.state = .revoked) →
        ∃ mandate, w.mandates flowId = some mandate ∧ Unchanged mandate info
  | _ => True

section Invariant

variable {w : PortfolioWorld δ} {a : Action δ}

/-- What is known of a flow of an agent that waits for its plan. -/
def MandateKept (s : PortfolioState δ) (mandate : Option PortfolioAgentInfo) (flow : RunningFlow)
    (agentId : Nat) : Prop :=
  ∃ info, mandate = some info ∧ info.state = .active ∧
    info.permissions.permits flow.detail.requires ∧
    (flow.detail.versioned → ∃ version, flow.detail.createdAt = some version ∧
      version ≤ s.policyVersion ∧ (version = s.policyVersion →
        delegationOf s agentId = some info ∨
          ∃ current, delegationOf s agentId = some current ∧ current.state = .revoked))

structure MandatesKept (w : PortfolioWorld δ) : Prop where
  flows : FlowsKept w.portfolio
  mandates : ∀ flowId flow agentId, w.portfolio.flowsRunning.lookup flowId = some flow →
    flow.awaitingSteps → flow.detail.agent = some agentId →
      MandateKept w.portfolio (w.mandates flowId) flow agentId

/-- A mandate is known as long as every change of a delegation but a revocation changes the
policy version too. -/
theorem MandateKept.mono {s t : PortfolioState δ} {mandate : Option PortfolioAgentInfo}
    {flow : RunningFlow} {agentId : Nat} (h : MandateKept s mandate flow agentId)
    (hchange : s.policyVersion < t.policyVersion ∨ s.policyVersion = t.policyVersion ∧
      (delegationOf t agentId = delegationOf s agentId ∨
        ∃ info, delegationOf t agentId = some info ∧ info.state = .revoked)) :
    MandateKept t mandate flow agentId := by
  obtain ⟨info, hmandate, hactive, hpermits, hversion⟩ := h
  refine ⟨info, hmandate, hactive, hpermits, fun hversioned => ?_⟩
  obtain ⟨version, hcreatedAt, hle, hsame⟩ := hversion hversioned
  rcases hchange with hlt | ⟨heq, hdelegation⟩
  · exact ⟨version, hcreatedAt, by omega, fun h => by omega⟩
  · refine ⟨version, hcreatedAt, heq ▸ hle, fun hcurrent => ?_⟩
    rcases hdelegation with hdelegation | hrevoked
    · rw [hdelegation]
      exact hsame (hcurrent.trans heq.symm)
    · exact .inr hrevoked

theorem step_mandates_of_running {flowId : Nat} {old : RunningFlow}
    (h : w.portfolio.flowsRunning.lookup flowId = some old) :
    (w.step a).mandates flowId = w.mandates flowId := by
  unfold PortfolioWorld.step
  exact if_pos (Table.has_of_lookup h)

theorem step_mandates_of_fresh {flowId agentId : Nat} {flow : RunningFlow}
    (hfresh : ¬ w.portfolio.flowsRunning.has flowId)
    (h : (w.step a).portfolio.flowsRunning.lookup flowId = some flow)
    (hagent : flow.detail.agent = some agentId) :
    (w.step a).mandates flowId = delegationOf (w.step a).portfolio agentId := by
  have hmandate : (w.step a).mandates flowId =
      ((w.step a).portfolio.flowsRunning.lookup flowId).bind fun flow =>
        flow.detail.agent.bind (delegationOf (w.step a).portfolio) := by
    unfold PortfolioWorld.step
    exact if_neg hfresh
  rw [hmandate, h, Option.bind_some, hagent, Option.bind_some]

theorem delegationOf_congr {s t : PortfolioState δ} (h : t.delegations = s.delegations)
    (agentId : Nat) : delegationOf t agentId = delegationOf s agentId := by
  unfold delegationOf
  rw [h]

theorem version_or_same {s t : PortfolioState δ} {flow : RunningFlow} (h : PolicyPart s t flow)
    (hdelegations : t.delegations = s.delegations) (agentId : Nat) :
    s.policyVersion < t.policyVersion ∨ s.policyVersion = t.policyVersion ∧
      (delegationOf t agentId = delegationOf s agentId ∨
        ∃ info, delegationOf t agentId = some info ∧ info.state = .revoked) := by
  cases h with
  | kept hversion => exact .inr ⟨hversion.symm, .inl (delegationOf_congr hdelegations agentId)⟩
  | committed _ _ _ hversion => exact .inl (by omega)

theorem MandatesKept.insert (h : MandatesKept w) {flowId : Nat} {flow : RunningFlow}
    (hflows : (w.step a).portfolio.flowsRunning = w.portfolio.flowsRunning.insert flowId flow)
    (hchange : ∀ agentId, w.portfolio.policyVersion < (w.step a).portfolio.policyVersion ∨
      w.portfolio.policyVersion = (w.step a).portfolio.policyVersion ∧
        (delegationOf (w.step a).portfolio agentId = delegationOf w.portfolio agentId ∨
          ∃ info, delegationOf (w.step a).portfolio agentId = some info ∧ info.state = .revoked))
    (hflow : ∀ agentId, flow.awaitingSteps → flow.detail.agent = some agentId →
      MandateKept (w.step a).portfolio ((w.step a).mandates flowId) flow agentId) :
    MandatesKept (w.step a) where
  flows := h.flows.step a
  mandates := by
    intro id found agentId hfound hawaiting hagent
    rw [hflows, Table.lookup_insert] at hfound
    split at hfound
    · next heq =>
      cases hfound
      rw [heq]
      exact hflow agentId hawaiting hagent
    · rw [step_mandates_of_running hfound]
      exact (h.mandates id found agentId hfound hawaiting hagent).mono (hchange agentId)

theorem MandatesKept.started (h : MandatesKept w) {info : PortfolioAgentInfo} {agentId : Nat}
    {flow : RunningFlow}
    {observations : Option PlanObservations}
    (hstarted : AgentStarted observations w.portfolio (w.step a).portfolio agentId info flow) :
    MandatesKept (w.step a) := by
  have hlookup : (w.step a).portfolio.flowsRunning.lookup w.portfolio.nextFlowId = some flow := by
    rw [hstarted.flows, Table.lookup_insert, if_pos rfl]
  have hdelegation : delegationOf (w.step a).portfolio agentId = some info := by
    rw [delegationOf_congr hstarted.delegations, hstarted.delegation]
  apply h.insert hstarted.flows (version_or_same hstarted.policy hstarted.delegations)
  intro other _ hagent
  obtain rfl : agentId = other := Option.some.inj (hstarted.agent.symm.trans hagent)
  refine ⟨info, ?_, hstarted.active, hstarted.permits, fun hversioned => ?_⟩
  · rw [step_mandates_of_fresh h.flows.fresh hlookup hagent, hdelegation]
  · refine ⟨_, hstarted.createdAt hversioned, ?_, fun _ => .inl hdelegation⟩
    cases hstarted.policy with
    | kept hversion => exact hversion.ge
    | committed _ _ _ hversion => exact hversion ▸ Nat.le_succ _

theorem MandatesKept.step (h : MandatesKept w) (a : Action δ) : MandatesKept (w.step a) := by
  cases h.flows.effect a with
  | quiet hquiet =>
    refine ⟨h.flows.step a, fun flowId flow agentId hflow hawaiting hagent => ?_⟩
    obtain ⟨old, hold, rfl | ⟨_, reason, rfl⟩⟩ := hquiet.flows flowId flow hflow
    · rw [step_mandates_of_running hold]
      apply (h.mandates flowId flow agentId hold hawaiting hagent).mono
      exact .inr ⟨hquiet.policyVersion.symm, hquiet.delegations agentId⟩
    · cases hawaiting
  | policy _ hpolicy =>
    refine ⟨h.flows.step a, fun flowId flow agentId hflow hawaiting hagent => ?_⟩
    rw [hpolicy.flows] at hflow
    rw [step_mandates_of_running hflow]
    apply (h.mandates flowId flow agentId hflow hawaiting hagent).mono
    have hversion : (w.step a).portfolio.policyVersion = w.portfolio.policyVersion + 1 :=
      hpolicy.policyVersion
    exact .inl (by omega)
  | owner _ flow _ _ hstarted =>
    apply h.insert hstarted.flows (version_or_same hstarted.policy hstarted.delegations)
    intro agentId _ hagent
    rw [hstarted.owner] at hagent
    cases hagent
  | agent client required _ _ hsubmitted =>
    obtain ⟨info, flow, -, -, -, hstarted⟩ := hsubmitted
    exact h.started hstarted
  | planned flowId plan version count observations old flow _ hplanned _ _ =>
    apply h.insert hplanned.flows (version_or_same hplanned.policy hplanned.delegations)
    exact fun _ hawaiting => absurd hawaiting hplanned.settled

theorem kept_open (portfolioId : Nat) (sourceAccountId : Option String) :
    MandatesKept (PortfolioWorld.open portfolioId sourceAccountId : PortfolioWorld δ) :=
  ⟨flowsKept_open portfolioId sourceAccountId,
    fun _ _ _ h => absurd h (no_flow_open portfolioId sourceAccountId)⟩

theorem mandatesKept_of_reachable {ok : PortfolioWorld δ → Action δ → Prop}
    (h : (portfolioSystem δ).Reachable ok w) : MandatesKept w := by
  apply h.invariant
  · rintro _ ⟨portfolioId, sourceAccountId, rfl⟩
    exact kept_open portfolioId sourceAccountId
  · intro w a t hkept _ hstep
    cases hstep
    exact hkept.step a

end Invariant

section Steps

variable {w : PortfolioWorld δ} {a : Action δ}

theorem not_accepts_of_running {flowId : Nat} {flow : RunningFlow}
    (hold : w.portfolio.flowsRunning.lookup flowId = some flow) : ¬ Accepts w a flowId flow := by
  intro haccepts
  obtain ⟨plan, hplan⟩ := haccepts.resolved
  have hawaiting := haccepts.before flow hold
  simp [RunningFlow.awaitingSteps, hplan] at hawaiting

theorem delegated_of_ok (h : MandatesKept w) (ha : IsDelegated a) (flowId : Option Nat) (c : Contract δ)
    (hok : perform a w.contract = .ok flowId c) :
    ∃ client permission info, delegatedBy w.contract a = some (client, permission) ∧
      Authorized w.portfolio client client.agentId (some permission) info ∧
      ¬ w.portfolio.flowsRunning.has (w.portfolio.nextFlowId - 1) := by
  have hdelegates := delegates ha h.flows.fresh
  unfold Delegates Wp at hdelegates
  rw [hok] at hdelegates
  obtain ⟨client, permission, hby, info, flow, hauthorized, hlatest, -, -⟩ := hdelegates
  exact ⟨client, permission, info, hby, hauthorized, hlatest⟩

theorem allocated_of_change (h : MandatesKept w)
    (ha : IsDelegated a ∨ ∃ flowId plan version count observations,
      a = .resolvePlan flowId plan version count observations)
    (hchange : (w.step a).portfolio.targetAllocation ≠ w.portfolio.targetAllocation) :
    ∃ flowId flow targetAllocation, Commits w a flowId flow targetAllocation ∧
      (w.step a).portfolio.targetAllocation = some targetAllocation := by
  cases h.flows.effect a with
  | quiet hquiet => exact absurd hquiet.targetAllocation hchange
  | policy hauthor _ =>
    rcases ha with ha | ⟨flowId, plan, version, count, observations, rfl⟩
    · rw [authorOf_delegated ha] at hauthor
      cases hauthor
    · cases hauthor
  | owner request _ howner _ _ =>
    subst howner
    rcases ha with hnot | ⟨_, _, _, _, _, hnot⟩ <;> cases hnot
  | agent client required _ _ hsubmitted =>
    obtain ⟨info, flow, -, -, -, hstarted⟩ := hsubmitted
    cases hstarted.policy with
    | kept _ htarget => exact absurd htarget hchange
    | committed target hoperation htarget _ =>
      refine ⟨w.portfolio.nextFlowId, flow, target, ⟨?_, ⟨_, hoperation⟩, ?_⟩, htarget⟩
      · rw [hstarted.flows]
        exact (Table.lookup_insert ..).trans (if_pos rfl)
      · exact fun _ hold => absurd (Table.has_of_lookup hold) h.flows.fresh
  | planned flowId plan version count observations old flow _ hplanned _ _ =>
    cases hplanned.policy with
    | kept _ htarget => exact absurd htarget hchange
    | committed target hoperation htarget hversion =>
      refine ⟨flowId, flow, target, ⟨?_, ⟨_, hoperation⟩, ?_⟩, htarget⟩
      · rw [hplanned.flows]
        exact (Table.lookup_insert ..).trans (if_pos rfl)
      · rintro was hwas ⟨_, hcommitted⟩
        obtain rfl : old = was := Option.some.inj (hplanned.running.symm.trans hwas)
        rcases hplanned.detail with ⟨_, _, hsame⟩ | ⟨pending, hpending, _⟩
        · omega
        · rw [operation_of_pending hpending] at hcommitted
          cases hcommitted

theorem planned_mandate (h : MandatesKept w) {flowId version count agentId : Nat} {plan : FundsFlowPlan}
    {observations : Option PlanObservations} {old : RunningFlow}
    (ha : a = .resolvePlan flowId plan version count observations) (hok : PlannedUnchanged w a)
    (hvetted : PlanVetted w.portfolio flowId old plan version count observations)
    (hfits : old.detail.pendingTargetAllocation.isSome ∨ PlacesFit w.portfolio old plan)
    (hagent : old.detail.agent = some agentId) :
    ∃ info mandate, delegationOf w.portfolio agentId = some info ∧
      info.permissions.permits old.detail.requires ∧
      w.mandates flowId = some mandate ∧ Unchanged mandate info := by
  obtain ⟨mandate, hmandate, hactive, hpermits, hversion⟩ :=
    h.mandates flowId old agentId hvetted.running hvetted.awaiting hagent
  obtain ⟨info, _, hcurrent, _, _⟩ := hvetted.mandate agentId hagent
  have hchecked (hrevoked : old.detail.versioned → info.state = .revoked) :
      Unchanged mandate info := by
    subst ha
    obtain ⟨found, hfound, hunchanged⟩ :=
      hok old agentId info hvetted hfits hagent hcurrent hrevoked
    obtain rfl : mandate = found := Option.some.inj (hmandate.symm.trans hfound)
    exact hunchanged
  have hunchanged : Unchanged mandate info := by
    by_cases hversioned : old.detail.versioned
    · obtain ⟨created, hcreatedAt, _, hlatest⟩ := hversion hversioned
      have hnow : some created = some w.portfolio.policyVersion :=
        hcreatedAt.symm.trans (hvetted.createdAt agentId hagent hversioned)
      rcases hlatest (Option.some.inj hnow) with hkept | ⟨revoked, hkept, hrevoked⟩
      · obtain rfl : info = mandate := Option.some.inj (hcurrent.symm.trans hkept)
        exact ⟨hactive, rfl⟩
      · obtain rfl : info = revoked := Option.some.inj (hcurrent.symm.trans hkept)
        exact hchecked fun _ => hrevoked
    · exact hchecked fun hver => absurd hver hversioned
  exact ⟨info, mandate, hcurrent, hunchanged.2 ▸ hpermits, hmandate, hunchanged⟩

theorem commits_within (h : MandatesKept w) (hok : PlannedUnchanged w a) {flowId agentId : Nat}
    {flow : RunningFlow} {targetAllocation : TargetAllocation}
    (hcommits : Commits w a flowId flow targetAllocation)
    (hagent : flow.detail.agent = some agentId) :
    ∃ info, delegationOf w.portfolio agentId = some info ∧ info.state = .active ∧
      info.permissions.permits .allocation ∧
      WithinMandate info.permissions targetAllocation (observationsOf w.contract a) := by
  have hnew (hold : w.portfolio.flowsRunning.lookup flowId = some flow) : False :=
    hcommits.before flow hold hcommits.committed
  cases h.flows.effect a with
  | quiet hquiet =>
    obtain ⟨old, hold, rfl | ⟨_, reason, rfl⟩⟩ := hquiet.flows flowId flow hcommits.running
    · exact (hnew hold).elim
    · exact absurd (committed_of_rejected hcommits.committed) (hcommits.before old hold)
  | policy _ hpolicy =>
    have hrunning := hcommits.running
    rw [hpolicy.flows] at hrunning
    exact (hnew hrunning).elim
  | owner _ started _ _ hstarted =>
    rcases flow_of_insert hstarted.flows hcommits.running with ⟨rfl, rfl⟩ | hold
    · rw [hstarted.owner] at hagent
      cases hagent
    · exact (hnew hold).elim
  | agent client required _ _ hsubmitted =>
    obtain ⟨info, started, -, -, -, hstarted⟩ := hsubmitted
    rcases flow_of_insert hstarted.flows hcommits.running with ⟨rfl, rfl⟩ | hold
    · obtain rfl : client.agentId = agentId := Option.some.inj (hstarted.agent.symm.trans hagent)
      have hpermits := hstarted.permits
      obtain ⟨version, hoperation⟩ := hcommits.committed
      rw [requires_of_operation hoperation] at hpermits
      exact ⟨info, hstarted.delegation, hstarted.active, hpermits,
        hstarted.mandate targetAllocation hcommits.committed⟩
    · exact (hnew hold).elim
  | planned id plan version count observations old planned ha hplanned hvetted _ =>
    rcases flow_of_insert hplanned.flows hcommits.running with ⟨rfl, rfl⟩ | hold
    · rcases hplanned.detail with ⟨hsame, _, _⟩ | ⟨pending, hpending, hdetail, _, hmandate⟩
      · obtain ⟨status, hoperation⟩ := hcommits.committed
        exact absurd ⟨status, hsame ▸ hoperation⟩ (hcommits.before old hplanned.running)
      · obtain ⟨status, hoperation⟩ := hcommits.committed
        rw [hdetail, operation_withStatus _ hpending] at hoperation
        cases hoperation
        rw [hdetail, agent_withStatus] at hagent
        obtain ⟨info, _, hcurrent, hpermits, _, hactive, _⟩ :=
          planned_mandate h ha hok hvetted (.inl (hpending ▸ rfl)) hagent
        rw [requires_of_operation (operation_of_pending hpending)] at hpermits
        obtain ⟨_, current, hfound, hwithin⟩ := hmandate agentId hagent
        obtain rfl : info = current := Option.some.inj (hcurrent.symm.trans hfound)
        subst ha
        exact ⟨info, hcurrent, hactive, hpermits, hwithin⟩
    · exact (hnew hold).elim

theorem accepts_under (h : MandatesKept w) (hok : PlannedUnchanged w a) {flowId agentId : Nat}
    {flow : RunningFlow} (haccepts : Accepts w a flowId flow)
    (hagent : flow.detail.agent = some agentId) :
    ∃ info mandate, delegationOf (w.step a).portfolio agentId = some info ∧
      info.permissions.permits flow.detail.requires ∧
      (w.step a).mandates flowId = some mandate ∧ Unchanged mandate info := by
  have hnew (hold : w.portfolio.flowsRunning.lookup flowId = some flow) : False :=
    not_accepts_of_running hold haccepts
  obtain ⟨accepted, hresolved⟩ := haccepts.resolved
  cases h.flows.effect a with
  | quiet hquiet =>
    obtain ⟨old, hold, rfl | ⟨_, reason, rfl⟩⟩ := hquiet.flows flowId flow haccepts.running
    · exact (hnew hold).elim
    · cases hresolved
  | policy _ hpolicy =>
    have hrunning := haccepts.running
    rw [hpolicy.flows] at hrunning
    exact (hnew hrunning).elim
  | owner _ started _ _ hstarted =>
    rcases flow_of_insert hstarted.flows haccepts.running with ⟨rfl, rfl⟩ | hold
    · rw [hstarted.owner] at hagent
      cases hagent
    · exact (hnew hold).elim
  | agent client required _ _ hsubmitted =>
    obtain ⟨info, started, -, -, -, hstarted⟩ := hsubmitted
    rcases flow_of_insert hstarted.flows haccepts.running with ⟨rfl, rfl⟩ | hold
    · obtain rfl : client.agentId = agentId := Option.some.inj (hstarted.agent.symm.trans hagent)
      have hdelegation : delegationOf (w.step a).portfolio client.agentId = some info := by
        rw [delegationOf_congr hstarted.delegations, hstarted.delegation]
      refine ⟨info, info, hdelegation, hstarted.permits, ?_, hstarted.active, rfl⟩
      exact (step_mandates_of_fresh h.flows.fresh haccepts.running hagent).trans hdelegation
    · exact (hnew hold).elim
  | planned id plan version count observations old planned ha hplanned hvetted hfits =>
    rcases flow_of_insert hplanned.flows haccepts.running with ⟨rfl, rfl⟩ | hold
    · have hsame : flow.detail.agent = old.detail.agent ∧
          flow.detail.requires = old.detail.requires := by
        rcases hplanned.detail with ⟨hsame, _, _⟩ | ⟨pending, _, hdetail, _⟩
        · exact ⟨by rw [hsame], by rw [hsame]⟩
        · rw [hdetail]
          exact ⟨agent_withStatus .., requires_withStatus ..⟩
      rw [hsame.1] at hagent
      obtain ⟨info, mandate, hcurrent, hpermits, hmandate, hunchanged⟩ :=
        planned_mandate h ha hok hvetted (.inr (hfits accepted hresolved)) hagent
      refine ⟨info, mandate, ?_, hsame.2 ▸ hpermits, ?_, hunchanged⟩
      · exact (delegationOf_congr hplanned.delegations agentId).trans hcurrent
      · rw [step_mandates_of_running hplanned.running, hmandate]
    · exact (hnew hold).elim

/-- In every run in which the plans come under unchanged delegations, whatever agents and the
planner have done is within the mandate in force. -/
theorem within_current_mandate (h : (portfolioSystem δ).Reachable PlannedUnchanged w)
    (hok : PlannedUnchanged w a) : WithinCurrentMandate w a := by
  have hkept : MandatesKept w := mandatesKept_of_reachable h
  exact {
    delegated := delegated_of_ok hkept
    allocated := allocated_of_change hkept
    committed := fun _ _ _ _ => commits_within hkept hok
    accepted := fun _ _ _ => accepts_under hkept hok }

end Steps

section RevokedPlan

variable {w : PortfolioWorld δ}

def IsPlan : Action δ → Bool
  | .resolvePlan _ _ _ _ _ => true
  | _ => false

theorem reachable_foldl (h : (portfolioSystem δ).Reachable PlannedUnchanged w)
    (actions : List (Action δ)) (hplans : actions.all (fun a => ¬ IsPlan a) = true) :
    (portfolioSystem δ).Reachable PlannedUnchanged (actions.foldl PortfolioWorld.step w) := by
  induction actions generalizing w with
  | nil => exact h
  | cons a actions ih =>
    rw [List.all_cons, Bool.and_eq_true] at hplans
    refine ih (h.step ?_ rfl) hplans.2
    cases a with
    | resolvePlan => cases hplans.1
    | _ => exact trivial

/-- The owner sets an allocation and grants an agent the right to change it; the agent
submits one without a plan, which is committed at once. -/
def agentSubmits : List (Action Unit) := [
  .owner (.evmRebalance (some [("USDN", 100)])),
  .finishFlow 1,
  .grant "agoric1agent" { allocation := some (.flag true), rebalance := none, claimRewards := none },
  .resume 0,
  .settleDelivery 1 none,
  .setTargetAllocation { agentId := 1 } {
    syncState := { policyVersion := 2, rebalanceCount := 0 }
    targetAllocation := fromEntries [("USDN", 50)] },
  .observationsVerified 2 (.error "no observations")]

def portfolioOf (actions : List (Action Unit)) : PortfolioWorld Unit :=
  actions.foldl PortfolioWorld.step (PortfolioWorld.open 0 (some "eip155:1:0xabc"))

def planFor (policyVersion : Nat) : Action Unit :=
  .resolvePlan 2 { flow := [], order := none } policyVersion 0 none

theorem reachable_portfolioOf (actions : List (Action Unit))
    (hplans : actions.all (fun a => ¬ IsPlan a) = true) :
    (portfolioSystem Unit).Reachable PlannedUnchanged (portfolioOf actions) :=
  reachable_foldl (.init ⟨0, some "eip155:1:0xabc", rfl⟩) actions hplans

/-- The plan for the agent's flow, with its delegation in force. -/
theorem within_current_mandate_planned :
    WithinCurrentMandate (portfolioOf agentSubmits) (planFor 3) := by
  apply within_current_mandate (reachable_portfolioOf _ rfl)
  intro flow agentId info hvetted _ hagent hinfo _
  have hagents : ((portfolioOf agentSubmits).portfolio.flowsRunning.lookup 2).all
      (fun flow => flow.detail.agent = some 1) = true := by decide +kernel
  have hunchanged : (portfolioOf agentSubmits).mandates 2 =
      delegationOf (portfolioOf agentSubmits).portfolio 1 := by decide +kernel
  have hactive : (delegationOf (portfolioOf agentSubmits).portfolio 1).all
      (fun info => info.state = .active) = true := by decide +kernel
  rw [hvetted.running] at hagents
  simp only [Option.all_some, decide_eq_true_eq] at hagents
  obtain rfl : 1 = agentId := Option.some.inj (hagents.symm.trans hagent)
  rw [hinfo] at hactive
  exact ⟨info, hunchanged.trans hinfo, of_decide_eq_true hactive, rfl⟩

/-- After the owner has revoked the delegation, the planner's plan for the flow of the
revoked agent is accepted. -/
theorem not_within_current_mandate : ¬ ∀ (w : PortfolioWorld Unit) (a : Action Unit),
    (portfolioSystem Unit).Reachable TransitionSystem.anyStep w → WithinCurrentMandate w a := by
  intro h
  let revoked := portfolioOf (agentSubmits ++ [.owner (.evmRevoke 1)])
  have hreachable : (portfolioSystem Unit).Reachable TransitionSystem.anyStep revoked :=
    (reachable_portfolioOf _ rfl).mono fun _ _ _ => trivial
  have hflow : ((revoked.step (planFor 4)).portfolio.flowsRunning.lookup 2).any (fun flow =>
      flow.detail.agent = some 1 && flow.sync.any fun outcome =>
        match outcome with
        | .resolved _ => true
        | .rejected _ => false) = true := by decide +kernel
  have hbefore : (revoked.portfolio.flowsRunning.lookup 2).all RunningFlow.awaitingSteps = true := by
    decide +kernel
  have hrevoked : (delegationOf (revoked.step (planFor 4)).portfolio 1).all
      (fun info => info.state = .revoked) = true := by decide +kernel
  obtain ⟨flow, hrunning, hflow⟩ := (Option.any_eq_true _ _).mp hflow
  simp only [Bool.and_eq_true, decide_eq_true_eq] at hflow
  have haccepts : Accepts revoked (planFor 4) 2 flow := by
    refine ⟨hrunning, ?_, fun old hold => ?_⟩
    · obtain ⟨outcome, hsync, houtcome⟩ := (Option.any_eq_true _ _).mp hflow.2
      cases outcome with
      | resolved plan => exact ⟨plan, hsync⟩
      | rejected reason => cases houtcome
    · rw [hold] at hbefore
      exact hbefore
  obtain ⟨info, _, hinfo, _, _, hactive, _⟩ := (h revoked (planFor 4) hreachable).accepted
    2 flow 1 haccepts hflow.1
  rw [hinfo] at hrevoked
  cases hactive.symm.trans (of_decide_eq_true hrevoked)

end RevokedPlan

end AgoricSdk.Portfolio
