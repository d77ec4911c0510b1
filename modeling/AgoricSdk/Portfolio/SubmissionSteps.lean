import AgoricSdk.Portfolio.PolicySteps

/-!
What a delegated call does: it starts a flow with the authority of its client, and
commits the target allocation only within the mandate.
-/

namespace AgoricSdk.Portfolio

open StateProgram

variable {δ : Type} {s t : PortfolioState δ}

section Places

theorem seatRef_of_balancePlace {ref : PlaceRef} (h : isPortfolioBalancePlaceRef ref) :
    seatRef ref = none := by
  unfold seatRef
  unfold isPortfolioBalancePlaceRef isInterChainAccountRef isInstrumentId at h
  cases hchars : ref.toList with
  | nil => rfl
  | cons c cs =>
    rw [hchars] at h
    split
    · next heq =>
      obtain ⟨rfl, rfl⟩ := List.cons.inj heq
      simp at h
    · rfl

theorem signedRef_of_balancePlace {ref : PlaceRef} {sign : Char} (hsign : sign ≠ '@')
    (hletter : ¬ sign.isAlpha) (h : isPortfolioBalancePlaceRef ref) : signedRef sign ref = none := by
  unfold signedRef
  unfold isPortfolioBalancePlaceRef isInterChainAccountRef isInstrumentId at h
  cases hchars : ref.toList with
  | nil => rfl
  | cons c cs =>
    rw [hchars] at h
    apply if_neg
    rintro ⟨rfl, -⟩
    simp [hsign, hletter] at h

theorem decodeMovement_places {step : MovementDesc} {operation : PlanOperation}
    (h : decodeMovement step = .ok operation) :
    isPortfolioBalancePlaceRef step.src ∧ isPortfolioBalancePlaceRef step.dest := by
  unfold decodeMovement at h
  obtain ⟨⟨⟩, hsrc, h⟩ := bind_eq_ok.mp h
  obtain ⟨⟨⟩, hdest, h⟩ := bind_eq_ok.mp h
  exact ⟨insist_eq_ok.mp hsrc, insist_eq_ok.mp hdest⟩

theorem vetFlowPlanPlaces_of_decoded {plan : FundsFlowPlan} {decoded : DecodedPlan}
    (h : decodePlan plan = .ok decoded) (context : FlowPlanContext) :
    vetFlowPlanPlaces context plan.flow = .ok () := by
  unfold vetFlowPlanPlaces
  rw [forM_eq_ok]
  intro step hstep
  obtain ⟨operation, -, hoperation⟩ := (mapM_ok_spec (decodePlan_ok h).1).2 step hstep
  obtain ⟨hsrc, hdest⟩ := decodeMovement_places hoperation
  have hdeposit : getDepositChainOfPlaceRef step.src = .ok none := by
    unfold getDepositChainOfPlaceRef
    rw [signedRef_of_balancePlace (by decide) (by decide) hsrc]
    split <;> rfl
  have hwithdraw : getWithdrawChainOfPlaceRef step.dest = .ok none := by
    unfold getWithdrawChainOfPlaceRef
    rw [signedRef_of_balancePlace (by decide) (by decide) hdest]
    rfl
  have hkeyword {ref : PlaceRef} (href : isPortfolioBalancePlaceRef ref) :
      getKeywordOfPlaceRef ref = .ok none := by
    unfold getKeywordOfPlaceRef
    rw [seatRef_of_balancePlace href]
    rfl
  simp only [hkeyword hsrc, hkeyword hdest, hdeposit, hwithdraw]
  rfl

theorem vetted_commits {permissions : PortfolioPermissions} {target : TargetAllocation}
    {plan : FundsFlowPlan} {observations : Option PlanObservations} {commit : Bool}
    (h : vetAllocationPlan permissions target (some plan) observations = .ok commit) :
    commit = true ∧ ∃ decoded, decodePlan plan = .ok decoded := by
  unfold vetAllocationPlan at h
  obtain ⟨_, _, h⟩ := bind_eq_ok.mp h
  cases observations with
  | none => cases h
  | some seen =>
    obtain ⟨_, hplan, h⟩ := bind_eq_ok.mp h
    obtain ⟨_, _, h⟩ := bind_eq_ok.mp h
    unfold vetPlanAllocation at hplan
    obtain ⟨decoded, hdecoded, _⟩ := bind_eq_ok.mp hplan
    exact ⟨(Except.ok.inj h).symm, decoded, hdecoded⟩

end Places

section Submissions

variable {observations : Option PlanObservations} {client : PortfolioDelegationClient}
  {agentId : Nat} {info : PortfolioAgentInfo} {flow : RunningFlow}

/-- A delegated call of a client with the permission, while the latest flow is finished. -/
def Submitted (observations : Option PlanObservations) (client : PortfolioDelegationClient)
    (required : Permission) (s t : PortfolioState δ) : Prop :=
  ∃ info flow, Authorized s client client.agentId (some required) info ∧
    ¬ s.flowsRunning.has (s.nextFlowId - 1) ∧ flow.detail.requires = required ∧
    AgentStarted observations s t client.agentId info flow

theorem pending_of_requires (h : flow.detail.requires ≠ .allocation) :
    flow.detail.pendingTargetAllocation = none ∧ flow.detail.operation = none := by
  obtain ⟨sync, detail⟩ := flow
  cases detail with
  | rebalance detail =>
    obtain ⟨agent, memo, operation, createdAt⟩ := detail
    cases operation with
    | none => exact ⟨rfl, rfl⟩
    | some operation => exact absurd rfl h
  | _ => exact ⟨rfl, rfl⟩

theorem agentStarted_plain {required : Permission}
    (hauthorized : Authorized s client agentId (some required) info)
    (hagent : flow.detail.agent = some agentId) (hrequires : flow.detail.requires = required)
    (hcreatedAt : flow.detail.versioned → flow.detail.createdAt = some s.policyVersion)
    (hpending : flow.detail.pendingTargetAllocation.isSome → flow.awaitingSteps)
    (hcommitted : ∀ target, ¬ IsCommitted flow target) :
    AgentStarted observations s (s.started flow) agentId info flow where
  nextFlowId := rfl
  flows := rfl
  delegations := rfl
  pending := hpending
  policy := .kept rfl rfl le_rfl
  committed := fun target h => absurd h (hcommitted target)
  agent := hagent
  delegation := hauthorized.delegation
  active := hauthorized.active
  permits := hrequires ▸ hauthorized.permits _ rfl
  createdAt := hcreatedAt
  mandate := fun target h => absurd h (hcommitted target)
  refused := fun _ => ⟨rfl, rfl⟩

theorem not_committed_of_requires (h : flow.detail.requires ≠ .allocation) (target : TargetAllocation) :
    ¬ IsCommitted flow target := by
  rintro ⟨version, hoperation⟩
  rw [(pending_of_requires h).2] at hoperation
  cases hoperation

theorem AgentStarted.settle {u : PortfolioState δ} {settled : RunningFlow}
    (h : AgentStarted observations s t agentId info flow)
    (hrequires : flow.detail.requires ≠ .allocation) (hsame : SamePolicy t u)
    (hflows : u.flowsRunning = t.flowsRunning.insert s.nextFlowId settled)
    (hdelegations : u.delegations = t.delegations) (hdetail : settled.detail = flow.detail) :
    AgentStarted observations s u agentId info settled where
  nextFlowId := hsame.nextFlowId.trans h.nextFlowId
  flows := by rw [hflows, h.flows, Table.insert_insert_self]
  delegations := hdelegations.trans h.delegations
  pending := by
    rw [hdetail, (pending_of_requires hrequires).1]
    exact nofun
  policy := by
    rcases h.policy with ⟨hversion, htarget, hcount⟩ | ⟨target, hoperation, _, _⟩
    · exact .kept (hsame.policyVersion.trans hversion) (hsame.targetAllocation.trans htarget)
        (hcount.trans hsame.rebalanceCount)
    · exact absurd ⟨_, hoperation⟩ (not_committed_of_requires hrequires target)
  committed := by
    intro target hcommitted
    exact absurd hcommitted (not_committed_of_requires (hdetail ▸ hrequires) target)
  agent := hdetail ▸ h.agent
  delegation := h.delegation
  active := h.active
  permits := hdetail ▸ h.permits
  createdAt := hdetail ▸ h.createdAt
  mandate := by
    intro target hcommitted
    exact absurd hcommitted (not_committed_of_requires (hdetail ▸ hrequires) target)
  refused := by
    rintro -
    rcases h.policy with ⟨hversion, htarget, hcount⟩ | ⟨target, hoperation, _, _⟩
    · exact ⟨hsame.policyVersion.trans hversion, hsame.targetAllocation.trans htarget⟩
    · exact absurd ⟨_, hoperation⟩ (not_committed_of_requires hrequires target)

theorem lookup_started (s : PortfolioState δ) (flow : RunningFlow) :
    (s.started flow).flowsRunning.lookup s.nextFlowId = some flow := by
  unfold PortfolioState.started
  rw [Table.lookup_insert, if_pos rfl]

theorem withFlow_started (s : PortfolioState δ) (flow flow' : RunningFlow) :
    (s.started flow).withFlow s.nextFlowId flow' = s.started flow' := by
  unfold PortfolioState.started PortfolioState.withFlow
  rw [Table.insert_insert_self]

theorem submitClaimRewards_spec {params : DelegatedParams}
    (hfresh : ¬ s.flowsRunning.has s.nextFlowId) :
    Wp (submitClaimRewards client client.agentId params)
      (fun flowId t => flowId = s.nextFlowId ∧ Submitted observations client .claimRewards s t)
      (fun _ t => t = s) s := by
  unfold submitClaimRewards
  rw [wp_bind]
  refine getAuthorizedDelegation_spec (fun info hauthorized => ?_) fun _ => rfl
  rw [wp_bind]
  refine checkVersion_spec (fun _ _ => ?_) fun _ _ => rfl
  rw [wp_bind]
  refine insistLatestFlowFinished_spec (fun hfinished => ?_) fun _ => rfl
  apply startFlow_spec hfresh
  exact ⟨rfl, info, _, hauthorized, hfinished, rfl,
    agentStarted_plain hauthorized rfl rfl nofun nofun (not_committed_of_requires nofun)⟩

theorem submitRebalance_spec {params : DelegatedParams}
    (hfresh : ¬ s.flowsRunning.has s.nextFlowId) :
    Wp (submitRebalance client client.agentId params)
      (fun flowId t => flowId = s.nextFlowId ∧ Submitted observations client .rebalance s t)
      (fun _ t => t = s) s := by
  unfold submitRebalance
  rw [wp_bind]
  refine getAuthorizedDelegation_spec (fun info hauthorized => ?_) fun _ => rfl
  rw [wp_bind]
  refine checkVersion_spec (fun hversion _ => ?_) fun _ _ => rfl
  rw [wp_bind, wp_get, wp_bind]
  refine check_spec (fun _ => ?_) fun _ => rfl
  rw [wp_bind]
  refine insistLatestFlowFinished_spec (fun hfinished => ?_) fun _ => rfl
  rw [wp_bind]
  apply startFlow_spec hfresh
  let flow : RunningFlow := { sync := none, detail := .rebalance {
    agent := some client.agentId
    agentMemo := params.agentMemo
    createdAtPolicyVersion := some params.syncState.policyVersion } }
  have hplain : AgentStarted observations s (s.started flow) client.agentId info flow :=
    agentStarted_plain hauthorized rfl rfl
      (fun _ => congrArg some hversion.symm) nofun (not_committed_of_requires nofun)
  have hposted : Submitted observations client .rebalance s (s.started flow) :=
    ⟨info, flow, hauthorized, hfinished, rfl, hplain⟩
  dsimp only
  apply wp_ite
  · intro _
    cases hmandate : assertMandateForAllocation info.permissions (s.targetAllocation.getD ∅) with
    | ok _ => exact ⟨rfl, hposted⟩
    | error reason =>
      simp only [wp_bind]
      apply rejectFlowPlan_spec
      · exact fun _ => ⟨rfl, hposted⟩
      · intro found hfound hawaiting
        have hsame := Option.some.inj ((lookup_started s flow).symm.trans hfound)
        subst hsame
        exact ⟨rfl, info, _, hauthorized, hfinished, rfl, hplain.settle nofun
          (quiet_rejected reason hfound hawaiting).toSamePolicy rfl rfl rfl⟩
  · exact fun _ => ⟨rfl, hposted⟩

theorem submitPlannerPlan_spec {required : Permission} {syncState : PortfolioSyncState}
    {plan : FundsFlowPlan} (hrequired : required ≠ .allocation)
    (h : Submitted observations client required s t) :
    Wp (submitPlannerPlan s.nextFlowId syncState plan)
      (fun flowId u => flowId = s.nextFlowId ∧ Submitted observations client required s u ∧ Later s u)
      (fun _ u => Submitted observations client required s u) t := by
  obtain ⟨info, flow, hauthorized, hfinished, hrequires, hstarted⟩ := h
  have hplain : flow.detail.requires ≠ .allocation := hrequires ▸ hrequired
  have hflow : t.flowsRunning.lookup s.nextFlowId = some flow := by
    rw [hstarted.flows, Table.lookup_insert, if_pos rfl]
  have hsubmitted {u : PortfolioState δ} {settled : RunningFlow} (hsame : SamePolicy t u)
      (hflows : u.flowsRunning = t.flowsRunning.insert s.nextFlowId settled)
      (hdelegations : u.delegations = t.delegations) (hdetail : settled.detail = flow.detail) :
      Submitted observations client required s u :=
    ⟨info, settled, hauthorized, hfinished, hdetail ▸ hrequires,
      hstarted.settle hplain hsame hflows hdelegations hdetail⟩
  unfold submitPlannerPlan vetPlannerPlan
  simp only [wp_bind, wp_get]
  refine ofExcept_spec (fun _ _ => ?_) fun _ _ =>
    ⟨info, flow, hauthorized, hfinished, hrequires, hstarted⟩
  refine submitVersion_spec (fun _ _ => ?_) fun _ _ =>
    ⟨info, flow, hauthorized, hfinished, hrequires, hstarted⟩
  have hlater : Later s t.counted := by
    rcases hstarted.policy with ⟨hversion, _, hcount⟩ | ⟨target, hoperation, _, _⟩
    · exact .inr ⟨hversion.symm, Nat.lt_succ_of_le hcount⟩
    · exact absurd ⟨_, hoperation⟩ (not_committed_of_requires hplain target)
  have hcounted : SamePolicy t t.counted := (quiet_counted t).toSamePolicy
  apply resolveFlowPlan_spec
  · intro _ _
    apply hsubmitted hcounted _ rfl rfl
    show t.flowsRunning = _
    rw [hstarted.flows, Table.insert_insert_self]
  · intro found reason hfound hawaiting _
    have hsame := Option.some.inj (hflow.symm.trans hfound)
    subst hsame
    apply hsubmitted (hcounted.withFlow _ _) rfl rfl
    show (if flow.detail.pendingTargetAllocation.isSome then _ else flow.detail) = flow.detail
    rw [(pending_of_requires hplain).1]
    rfl
  · intro found hfound hawaiting _
    have hsame := Option.some.inj (hflow.symm.trans hfound)
    subst hsame
    exact ⟨rfl, hsubmitted (hcounted.withFlow _ _) rfl rfl rfl, hlater⟩

theorem checkObservations_spec {params : DelegatedSetTargetAllocationParams}
    {verified : Option VerifiedPortfolioObservations} :
    Wp (checkObservations params verified) (fun _ t => t = s) (fun _ t => t = s) s := by
  unfold checkObservations
  apply wp_ite
  · intro _
    cases verified with
    | none => exact rfl
    | some verified =>
      simp only [wp_bind, wp_get]
      exact check_spec (fun _ => check_spec (fun _ => rfl) fun _ => rfl) fun _ => rfl
  · exact fun _ => rfl

/-- What is known of the submission before a flow is assigned. -/
def Presigned (permissions : PortfolioPermissions) (params : DelegatedSetTargetAllocationParams)
    (observations : Option PlanObservations) (vettedCommit : Option Bool) : Prop :=
  ∀ commit, vettedCommit = some commit →
    vetAllocationPlan permissions params.targetAllocation params.plan observations = .ok commit

theorem vetPresigned_spec {permissions : PortfolioPermissions}
    {params : DelegatedSetTargetAllocationParams} :
    Wp (vetPresigned permissions params observations)
      (fun vetted t => t = s ∧ Presigned permissions params observations vetted)
      (fun _ t => t = s) s := by
  unfold vetPresigned Presigned
  cases params.plan with
  | none => exact ⟨rfl, nofun⟩
  | some plan =>
    cases observations with
    | none => exact ⟨rfl, nofun⟩
    | some seen =>
      simp only [wp_bind, wp_get, wp_map]
      refine ofExcept_spec (fun _ _ => ?_) fun _ _ => rfl
      refine ofExcept_spec (fun commit hcommit => ?_) fun _ _ => rfl
      exact ⟨rfl, fun _ h => Option.some.inj h ▸ hcommit⟩

/-- The flow of a submitted target allocation. -/
def submissionFlow (client : PortfolioDelegationClient) (params : DelegatedSetTargetAllocationParams)
    (sync : Option PlanOutcome) (status : OperationStatus) : RunningFlow where
  sync
  detail := .rebalance {
    agent := some client.agentId
    agentMemo := params.agentMemo
    createdAtPolicyVersion := some params.syncState.policyVersion
    initiatingOperation := some { targetAllocation := params.targetAllocation, status } }

theorem agentStarted_committed {params : DelegatedSetTargetAllocationParams}
    {sync : Option PlanOutcome} (hsync : ∀ reason, sync ≠ some (.rejected reason))
    (hauthorized : Authorized s client client.agentId (some .allocation) info)
    (hmandate : WithinMandate info.permissions params.targetAllocation observations)
    (hnext : t.nextFlowId = s.nextFlowId + 1)
    (hflows : t.flowsRunning = s.flowsRunning.insert s.nextFlowId
      (submissionFlow client params sync (.ok (s.policyVersion + 1))))
    (hdelegations : t.delegations = s.delegations)
    (hversion : t.policyVersion = s.policyVersion + 1)
    (htarget : t.targetAllocation = some params.targetAllocation) :
    AgentStarted observations s t client.agentId info
      (submissionFlow client params sync (.ok (s.policyVersion + 1))) where
  nextFlowId := hnext
  flows := hflows
  delegations := hdelegations
  pending := nofun
  policy := .committed params.targetAllocation (by rw [hversion]; rfl) htarget hversion
  committed := fun _ _ => hversion
  agent := rfl
  delegation := hauthorized.delegation
  active := hauthorized.active
  permits := hauthorized.permits _ rfl
  createdAt := nofun
  mandate := by
    rintro target ⟨version, hoperation⟩
    have hsame : params.targetAllocation = target := by
      have := congrArg (Option.map InitiatingOperation.targetAllocation) hoperation
      exact Option.some.inj this
    exact hsame ▸ hmandate
  refused := fun ⟨reason, h⟩ => absurd h (hsync reason)

theorem commitSubmission_spec {params : DelegatedSetTargetAllocationParams}
    {vettedCommit : Option Bool}
    (hauthorized : Authorized s client client.agentId (some .allocation) info)
    (hversion : s.policyVersion = params.syncState.policyVersion)
    (hpresigned : Presigned info.permissions params observations vettedCommit) :
    Wp (commitSubmission s.nextFlowId info.permissions params observations vettedCommit)
      (fun _ t => ∃ sync status, AgentStarted observations s t client.agentId info
        (submissionFlow client params sync status))
      (fun _ t => t = s.started (submissionFlow client params none .pending))
      (s.started (submissionFlow client params none .pending)) := by
  unfold commitSubmission
  rw [wp_bind]
  refine ofExcept_spec (fun commit hsubmission => ?_) fun _ _ => rfl
  have hvetted : vetAllocationPlan info.permissions params.targetAllocation params.plan
      observations = .ok commit := by
    cases vettedCommit with
    | none => exact hsubmission
    | some vetted => exact hpresigned commit (congrArg some (Except.ok.inj hsubmission))
  cases commit with
  | false =>
    have hplan : params.plan = none := by
      cases hplan : params.plan with
      | none => rfl
      | some plan =>
        rw [hplan] at hvetted
        cases (vetted_commits hvetted).1
    rw [hplan]
    refine ⟨none, .pending, agentStarted_plain hauthorized rfl rfl ?_ (fun _ => rfl) ?_⟩
    · exact fun _ => congrArg some hversion.symm
    · rintro target ⟨version, hoperation⟩
      cases hoperation
  | true =>
    have hmandate := withinMandate_of_vetted hvetted
    simp only [if_true, wp_bind]
    apply updateTargetAllocation_spec
    let policy := (s.started (submissionFlow client params none .pending)).withPolicy
      (some params.targetAllocation)
    have hflow : policy.flowsRunning.lookup s.nextFlowId =
        some (submissionFlow client params none .pending) := lookup_started s _
    apply resolvePendingPolicy_spec hflow rfl
    let committed := policy.withFlow s.nextFlowId
      (submissionFlow client params none (.ok (s.policyVersion + 1)))
    cases hplan : params.plan with
    | none =>
      refine ⟨none, .ok (s.policyVersion + 1), agentStarted_committed (fun reason h => by cases h)
        hauthorized hmandate rfl ?_ rfl rfl rfl⟩
      exact Table.insert_insert_self ..
    | some plan =>
      rw [hplan] at hvetted
      obtain ⟨-, decoded, hdecoded⟩ := vetted_commits hvetted
      have hlookup : committed.flowsRunning.lookup s.nextFlowId =
          some (submissionFlow client params none (.ok (s.policyVersion + 1))) := by
        show (policy.flowsRunning.insert _ _).lookup _ = _
        rw [Table.lookup_insert, if_pos rfl]
      show Wp (resolveFlowPlan s.nextFlowId plan) _ _ committed
      apply resolveFlowPlan_spec
      · exact fun h => absurd rfl (h _ hlookup)
      · intro flow reason _ _ hunfit
        rw [vetFlowPlanPlaces_of_decoded hdecoded] at hunfit
        cases hunfit
      · intro flow hfound _ _
        have hsame := Option.some.inj (hlookup.symm.trans hfound)
        subst hsame
        refine ⟨some (.resolved plan), .ok (s.policyVersion + 1), agentStarted_committed
          (fun reason h => by cases h) hauthorized hmandate rfl ?_ rfl rfl rfl⟩
        show ((s.flowsRunning.insert _ _).insert _ _).insert _ _ = _
        rw [Table.insert_insert_self, Table.insert_insert_self]
        rfl

theorem submitTargetAllocation_spec {params : DelegatedSetTargetAllocationParams}
    {verified : Option VerifiedPortfolioObservations}
    (hfresh : ¬ s.flowsRunning.has s.nextFlowId) :
    Wp (submitTargetAllocation client client.agentId params verified)
      (fun flowId t => flowId = s.nextFlowId ∧
        Submitted (verified.map (·.observations)) client .allocation s t)
      (fun _ t => t = s) s := by
  unfold submitTargetAllocation
  rw [wp_bind]
  refine getAuthorizedDelegation_spec (fun info hauthorized => ?_) fun _ => rfl
  rw [wp_bind]
  refine checkVersion_spec (fun hversion _ => ?_) fun _ _ => rfl
  rw [wp_bind]
  refine wp_mono checkObservations_spec ?_ fun _ _ h => h
  rintro _ _ rfl
  rw [wp_bind]
  refine wp_mono vetPresigned_spec ?_ fun _ _ h => h
  rintro vettedCommit _ ⟨rfl, hpresigned⟩
  rw [wp_bind]
  refine insistLatestFlowFinished_spec (fun hfinished => ?_) fun _ => rfl
  rw [wp_bind]
  apply startFlow_spec hfresh
  rw [wp_bind, wp_attempt]
  refine wp_mono (commitSubmission_spec hauthorized hversion hpresigned) ?_ ?_
  · rintro ⟨⟩ t ⟨sync, status, hstarted⟩
    exact ⟨rfl, info, _, hauthorized, hfinished, rfl, hstarted⟩
  · rintro reason _ rfl
    simp only [wp_bind]
    apply rejectFlowPlan_spec
    · exact fun h => absurd rfl (h _ (lookup_started _ _))
    · intro flow hfound _
      have hsame := Option.some.inj ((lookup_started _ _).symm.trans hfound)
      subst hsame
      rw [withFlow_started]
      refine ⟨rfl, info, _, hauthorized, hfinished, rfl,
        agentStarted_plain hauthorized rfl rfl ?_ (fun h => by cases h) ?_⟩
      · exact fun _ => congrArg some hversion.symm
      · rintro target ⟨version, hoperation⟩
        cases hoperation

end Submissions

end AgoricSdk.Portfolio
