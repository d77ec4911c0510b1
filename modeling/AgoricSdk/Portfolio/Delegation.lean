import AgoricSdk.Portfolio.PortfolioKit

/-!
The parties of a portfolio: delegation clients, the planner and the owner, each
with the facet it may call. What waits for a promise goes on in a later turn.
-/

namespace AgoricSdk.Portfolio

open StateProgram

variable {δ : Type}

section DelegationHelper

structure VerifiedPortfolioObservations where
  portfolioId : Nat
  syncState : PortfolioSyncState
  observations : PlanObservations

structure DelegatedParams where
  syncState : PortfolioSyncState
  agentMemo : Option String := none

/-- Of the signed observations only their presence is known before they are verified. -/
structure DelegatedSetTargetAllocationParams extends DelegatedParams where
  targetAllocation : TargetAllocation
  plan : Option FundsFlowPlan := none
  signedObservations : Bool := false

def getAuthorizedDelegation (client : PortfolioDelegationClient) (agentId : Nat)
    (required : Option Permission) : Facet δ PortfolioAgentInfo := do
  let { portfolioId, .. } ← get
  let status ← getDelegation agentId
    s!"delegation client is not active for portfolio {portfolioId}"
  check (status.activeClient = some client)
    s!"delegation client is not active for {agentKey agentId}"
  check (status.state = .active)
    s!"delegation {agentKey agentId} is not active; current state is {q status.state.name}"
  if let some permission := required then
    check (status.permissions.permits permission)
      s!"delegation {agentKey agentId} does not have required permission {q permission.key}"
  return status

def SupportedChain.name : SupportedChain → String
  | Arbitrum => "Arbitrum"
  | Avalanche => "Avalanche"
  | Base => "Base"
  | Ethereum => "Ethereum"
  | Optimism => "Optimism"
  | agoric => "agoric"
  | noble => "noble"

def currentBalancePlaces (s : PortfolioState δ) : List PlaceRef :=
  (s.accounts.accounts.keys.map fun chain => "@" ++ chain.name) ++ s.positions

def qSyncState (syncState : PortfolioSyncState) : String :=
  s!"\x7b\"policyVersion\":{syncState.policyVersion},\"rebalanceCount\":{syncState.rebalanceCount}\x7d"

/-- The checks on the observations, as the delegation client verified them. -/
def checkObservations (params : DelegatedSetTargetAllocationParams)
    (verifiedObservations : Option VerifiedPortfolioObservations) : Facet δ Unit := do
  if params.plan.isSome ∨ verifiedObservations.isSome then
    match verifiedObservations with
    | none => throw "a plan requires verified observations"
    | some { portfolioId, syncState, .. } =>
      check (portfolioId = (← get).portfolioId) s!"observations are for portfolio {portfolioId}"
      check (syncState = params.syncState)
        s!"observations sync state {qSyncState syncState} does not match {qSyncState params.syncState}"

/-- A plan signed in advance is checked completely before a flow is assigned. -/
def vetPresigned (permissions : PortfolioPermissions) (params : DelegatedSetTargetAllocationParams)
    (observations : Option PlanObservations) : Facet δ (Option Bool) := do
  match params.plan, observations with
  | some plan, some observations =>
    MonadExcept.ofExcept (vetObservationPlaces (currentBalancePlaces (← get)) plan observations)
    some <$> MonadExcept.ofExcept
      (vetAllocationPlan permissions params.targetAllocation (some plan) (some observations))
  | _, _ => return none

def vetSubmission (permissions : PortfolioPermissions) (params : DelegatedSetTargetAllocationParams)
    (observations : Option PlanObservations) (vettedCommit : Option Bool) :
    Except String Bool :=
  match vettedCommit with
  | some commit => pure commit
  | none => vetAllocationPlan permissions params.targetAllocation params.plan observations

/-- Commit the allocation unless it waits for the planner, then resolve the plan given. -/
def commitSubmission (flowId : Nat) (permissions : PortfolioPermissions)
    (params : DelegatedSetTargetAllocationParams) (observations : Option PlanObservations)
    (vettedCommit : Option Bool) : Facet δ Unit := do
  let commitNow ← MonadExcept.ofExcept
    (vetSubmission permissions params observations vettedCommit)
  if commitNow then
    let resultingPolicyVersion ← updateTargetAllocation params.targetAllocation
    resolvePendingPolicy flowId resultingPolicyVersion
  if let some plan := params.plan then
    resolveFlowPlan flowId plan

def submitTargetAllocation (client : PortfolioDelegationClient) (agentId : Nat)
    (params : DelegatedSetTargetAllocationParams)
    (verifiedObservations : Option VerifiedPortfolioObservations) : Facet δ Nat := do
  let { permissions, .. } ← getAuthorizedDelegation client agentId (some .allocation)
  checkVersion params.syncState.policyVersion params.syncState.rebalanceCount
  checkObservations params verifiedObservations
  let observations := verifiedObservations.map (·.observations)
  let vettedCommit ← vetPresigned permissions params observations
  insistLatestFlowFinished
  let flowId ← startFlow (.rebalance {
    agent := some agentId
    agentMemo := params.agentMemo
    createdAtPolicyVersion := some params.syncState.policyVersion
    initiatingOperation := some {
      targetAllocation := params.targetAllocation, status := .pending } }) none
  match ← attempt (commitSubmission flowId permissions params observations vettedCommit) with
  | .error reason => rejectFlowPlan flowId reason
  | .ok () => pure ()
  return flowId

def submitRebalance (client : PortfolioDelegationClient) (agentId : Nat)
    (params : DelegatedParams) : Facet δ Nat := do
  let { permissions, .. } ← getAuthorizedDelegation client agentId (some .rebalance)
  checkVersion params.syncState.policyVersion params.syncState.rebalanceCount
  let limited : Bool := permissions.limits.isSome
  let { targetAllocation, .. } ← get
  check (limited → targetAllocation.isSome) "delegated rebalance requires target allocation"
  insistLatestFlowFinished
  let flowId ← startFlow (.rebalance {
    agent := some agentId
    agentMemo := params.agentMemo
    createdAtPolicyVersion := some params.syncState.policyVersion }) none
  if limited then
    match assertMandateForAllocation permissions (targetAllocation.getD ∅) with
    | .error reason => rejectFlowPlan flowId reason
    | .ok () => pure ()
  return flowId

def submitClaimRewards (client : PortfolioDelegationClient) (agentId : Nat)
    (params : DelegatedParams) : Facet δ Nat := do
  let _ ← getAuthorizedDelegation client agentId (some .claimRewards)
  checkVersion params.syncState.policyVersion params.syncState.rebalanceCount
  insistLatestFlowFinished
  startFlow (.claimRewards (some agentId) params.agentMemo) none

end DelegationHelper

section Owner

def insistAgoricOwned : Facet δ Unit := do
  let { portfolioId, sourceAccountId, .. } ← get
  let account := q (sourceAccountId.getD "")
  check (sourceAccountId = none) s!"portfolio{portfolioId} is owned by EVM account {account}"

def insistEvmOwned (message : String) : Facet δ Unit := do
  check ((← get).sourceAccountId.isSome) message

def assertExternalDelegationTarget (agentId : Nat) : Facet δ Unit := do
  let { delegations, plannerAgentId, .. } ← get
  let missing := s!"no delegation found for {agentKey agentId}"
  check ((delegations.getD ∅).has agentId) missing
  let delegation ← getDelegation agentId missing
  check (plannerAgentId ≠ some agentId)
    "planner delegation cannot be changed or revoked externally"
  check (delegation.grantee ≠ .planner ∨ delegation.state = .revoked)
    s!"active planner delegation {agentKey agentId} is not current"
  check (delegation.state = .active)
    s!"delegation {agentKey agentId} cannot be changed or revoked while {q delegation.state.name}"

/-- What the owner does at once. The offers come from an Agoric account, the `evm` requests
from an EVM account, and the rest from the flows of the owner's offers. -/
inductive OwnerRequest where
  | evmChangePermissions (agentId : Nat) (permissions : PortfolioPermissions)
  | evmRevoke (agentId : Nat)
  | evmDeposit (amount : Nat) (fromChain : String)
  | evmRebalance (allocations : Option (List (PlaceRef × Nat)))
  | evmWithdraw (amount : Nat) (toChain : String)
  | offerRebalance (flow : Option FundsFlowPlan)
  | offerDeposit (amount : Nat) (flow : Option FundsFlowPlan)
  | offerSimpleRebalance (targetAllocation : Option TargetAllocation) (flow : Option FundsFlowPlan)
  | offerWithdraw (amount : Nat)
  | setTargetAllocation (allocation : TargetAllocation)
  | incrPolicyVersion
  | startDeposit (amount : Nat) (fromChain : Option String)
      (initiatingOperation : Option InitiatingOperation) (flow : Option FundsFlowPlan)
  | initiateTransfer (evmAddress : String) (deadline now : Nat)
  | wakeTransfer (absValue : Nat)
  | completeTransfer (signer : String) (chainId now : Nat)

/-- The operation of a rebalance for which the allocation was set just before. -/
def setOperation (targetAllocation : TargetAllocation) (policyVersion : Nat) : InitiatingOperation :=
  { targetAllocation, status := .ok policyVersion }

def fromEntries (entries : List (PlaceRef × Nat)) : TargetAllocation :=
  entries.foldl (fun record entry => record.set entry.1 entry.2) ∅

def startRebalance (targetAllocation : Option TargetAllocation) (flow : Option FundsFlowPlan) :
    Facet δ Nat := do
  match targetAllocation with
  | some targetAllocation =>
    let policyVersion ← updateTargetAllocation targetAllocation
    startFlow (.rebalance {
      initiatingOperation := some (setOperation targetAllocation policyVersion) }) flow
  | none => startFlow (.rebalance {}) flow

def evmRebalance (allocations : Option (List (PlaceRef × Nat))) : Facet δ Nat := do
  insistEvmOwned
    "rebalance requires sourceAccountId to be set (portfolio must be opened from EVM)"
  match allocations with
  | some allocations =>
    check (0 < allocations.length) "rebalance with allocations requires non-empty allocations"
    startRebalance (some (fromEntries allocations)) none
  | none =>
    check (∃ target ∈ (← get).targetAllocation, target.keys ≠ [])
      "rebalance requires targetAllocation to be set"
    startRebalance none none

def maxYmaxDeadlineOffsetSeconds : Nat := 60 * 60 * 24

def sameEvmAddress (a b : String) : Bool := a.toLower = b.toLower

/-- A new designation supersedes the one before. -/
def initiateTransfer (evmAddress : String) (deadline now : Nat) : Facet δ Unit := do
  insistAgoricOwned
  check (now ≤ deadline) s!"deadline {qBigint deadline} has already passed (now {qBigint now})"
  check (deadline ≤ now + maxYmaxDeadlineOffsetSeconds)
    s!"deadline {qBigint deadline} is too far in the future (now {qBigint now})"
  modify fun s => { s with
    pendingOwnerTransfer := some { evmAddress, deadlineTimestampSeconds := deadline } }

def expireTransfer : Facet δ Unit :=
  modify fun s => { s with pendingOwnerTransfer := none }

def wakeTransfer (absValue : Nat) : Facet δ Unit := do
  if let some pending := (← get).pendingOwnerTransfer then
    if pending.deadlineTimestampSeconds < absValue then
      expireTransfer

def completeTransfer (signer : String) (chainId now : Nat) : Facet δ Unit := do
  insistAgoricOwned
  let s ← get
  match s.pendingOwnerTransfer with
  | none => throw s!"portfolio{s.portfolioId} has no pending ownership transfer"
  | some pending =>
    check (sameEvmAddress pending.evmAddress signer)
      s!"portfolio{s.portfolioId} is being transferred to {q pending.evmAddress}, not {q signer}"
    if pending.deadlineTimestampSeconds < now then
      expireTransfer
      throw s!"ownership transfer of portfolio{s.portfolioId} expired at {qBigint pending.deadlineTimestampSeconds}"
    modify fun s => { s with
      sourceAccountId := some s!"eip155:{chainId}:{signer.toLower}", pendingOwnerTransfer := none }

/-- The flow that a request starts, if any. -/
def ownerRequest : OwnerRequest → Facet δ (Option Nat)
  | .evmChangePermissions agentId permissions => do
    insistEvmOwned "changePermissions requires an EVM portfolio"
    assertExternalDelegationTarget agentId
    changePermissions agentId permissions
    return none
  | .evmRevoke agentId => do
    insistEvmOwned "revoke requires an EVM portfolio"
    assertExternalDelegationTarget agentId
    revokeDelegation agentId
    return none
  | .evmDeposit amount fromChain => do
    insistEvmOwned
      "deposit requires sourceAccountId to be set (portfolio must be opened from EVM)"
    some <$> startFlow (.deposit amount (some fromChain) none) none
  | .evmRebalance allocations => some <$> evmRebalance allocations
  | .evmWithdraw amount toChain => do
    insistEvmOwned
      "withdraw requires sourceAccountId to be set (portfolio must be opened from EVM)"
    some <$> startFlow (.withdraw amount (some toChain)) none
  | .offerRebalance flow => do
    insistAgoricOwned
    some <$> startFlow (.rebalance {}) flow
  | .offerDeposit amount flow => do
    insistAgoricOwned
    some <$> startFlow (.deposit amount none none) flow
  | .offerSimpleRebalance targetAllocation flow => do
    insistAgoricOwned
    some <$> startRebalance targetAllocation flow
  | .offerWithdraw amount => do
    insistAgoricOwned
    some <$> startFlow (.withdraw amount none) none
  | .setTargetAllocation allocation => do
    let _ ← updateTargetAllocation allocation
    return none
  | .incrPolicyVersion => do
    let _ ← bumpPolicyVersion
    return none
  | .startDeposit amount fromChain initiatingOperation flow =>
    some <$> startFlow (.deposit amount fromChain initiatingOperation) flow
  | .initiateTransfer evmAddress deadline now => do
    initiateTransfer evmAddress deadline now
    return none
  | .wakeTransfer absValue => do
    wakeTransfer absValue
    return none
  | .completeTransfer signer chainId now => do
    completeTransfer signer chainId now
    return none

end Owner

section AutoFeatures

/-- What `setAutoFeatures` knows when it goes on after its first turn. -/
structure AutoFeaturesCall where
  merged : PortfolioAutoFeatures
  /-- The planner's delegation, to be updated. -/
  plannerAgentId : Option Nat

def PortfolioAutoFeatures.permissions (features : PortfolioAutoFeatures) : PortfolioPermissions where
  allocation := some (.flag false)
  rebalance := some (features.rebalance.getD false)
  claimRewards := some (features.claimRewards.getD false)

/-- A feature that is not given keeps its setting. -/
def PortfolioAutoFeatures.merge (enabled features : PortfolioAutoFeatures) : PortfolioAutoFeatures where
  rebalance := features.rebalance <|> enabled.rebalance
  claimRewards := features.claimRewards <|> enabled.claimRewards

def beginAutoFeatures (features : PortfolioAutoFeatures) : Facet δ AutoFeaturesCall := do
  let s ← get
  let merged := (s.enabledAutoFeatures.getD {}).merge features
  match s.plannerAgentId with
  | none => return { merged, plannerAgentId := none }
  | some agentId =>
    let delegation ← getDelegation agentId "no delegations available"
    if delegation.state = .active then
      return { merged, plannerAgentId := some agentId }
    else
      modify fun s => { s with plannerAgentId := none }
      return { merged, plannerAgentId := none }

/-- Update the planner's delegation, grant it one, or change the settings only. With a grant
the settings wait for its delivery. -/
def continueAutoFeatures (call : AutoFeaturesCall) :
    Facet δ (Option (Nat × PortfolioAgentInfo)) := do
  let { merged, plannerAgentId } := call
  let permissions := merged.permissions
  match plannerAgentId with
  | some agentId =>
    changePermissions agentId permissions
    modify fun s => { s with enabledAutoFeatures := some merged }
    return none
  | none =>
    if permissions.permits .rebalance ∨ permissions.permits .claimRewards then
      some <$> grantDelegation .planner permissions
    else
      let _ ← bumpPolicyVersion
      modify fun s => { s with enabledAutoFeatures := some merged }
      return none

def finishAutoFeatures (agentId : Nat) (merged : PortfolioAutoFeatures) : Facet δ Unit :=
  modify fun s => { s with plannerAgentId := some agentId, enabledAutoFeatures := some merged }

end AutoFeatures

section Contract

/-- What goes on when its promise settles. -/
inductive Turn where
  | grant (grantee : String) (permissions : PortfolioPermissions)
  | delivery (agentId : Nat) (granted : PortfolioAgentInfo) (features : Option PortfolioAutoFeatures)
  | autoFeatures (call : AutoFeaturesCall)
  | setTargetAllocation (client : PortfolioDelegationClient)
      (params : DelegatedSetTargetAllocationParams)

structure Contract (δ : Type) where
  portfolio : PortfolioState δ
  /-- The client that was delivered to the planner for this portfolio. -/
  plannerDelegation : Option PortfolioDelegationClient := none
  turns : Table Nat Turn := ∅
  nextTurn : Nat := 0

abbrev Call (δ α : Type) := EStateM String (Contract δ) α

/-- A facet's method, called in the contract. -/
def onPortfolio {α : Type} (m : Facet δ α) : Call δ α := fun c =>
  match m c.portfolio with
  | .ok a portfolio => .ok a { c with portfolio }
  | .error e portfolio => .error e { c with portfolio }

def await (turn : Turn) : Call δ Unit :=
  modify fun c => { c with turns := c.turns.insert c.nextTurn turn, nextTurn := c.nextTurn + 1 }

def dropTurn (turn : Nat) : Call δ Unit :=
  modify fun c => { c with turns := c.turns.erase turn }

def evmGrant (grantee : String) (permissions : PortfolioPermissions) : Call δ Unit := do
  onPortfolio (insistEvmOwned "grant requires an EVM portfolio")
  onPortfolio (check (permissions.permits .allocation) "grant requires allocation permission")
  await (.grant grantee permissions)

def evmSetAutoFeatures (features : PortfolioAutoFeatures) : Call δ Unit := do
  onPortfolio (insistEvmOwned "setAutoFeatures requires an EVM portfolio")
  let call ← onPortfolio (beginAutoFeatures features)
  await (.autoFeatures call)

/-- Its client is given to the planner, or an invitation for it to the grantee. -/
def deliverDelegation (granted : PortfolioAgentInfo) : Call δ Unit := do
  if granted.grantee = .planner then
    modify fun c => { c with plannerDelegation := granted.activeClient }

/-- Go on after `await null`. -/
def resume (turn : Nat) : Call δ Unit := do
  match (← get).turns.lookup turn with
  | some (.grant grantee permissions) =>
    dropTurn turn
    let (agentId, granted) ← onPortfolio (grantDelegation (.address grantee) permissions)
    await (.delivery agentId granted none)
  | some (.autoFeatures call) =>
    dropTurn turn
    if let some (agentId, granted) ← onPortfolio (continueAutoFeatures call) then
      await (.delivery agentId granted (some call.merged))
  | _ => throw "no such turn"

/-- `none` for an outcome stands for success. -/
def settleDelivery (turn : Nat) (outcome : Option String) : Call δ Unit := do
  match (← get).turns.lookup turn with
  | some (.delivery agentId granted features) =>
    dropTurn turn
    match outcome with
    | some error =>
      onPortfolio (withdrawGrant agentId granted)
      throw error
    | none =>
      deliverDelegation granted
      if let some merged := features then
        onPortfolio (finishAutoFeatures agentId merged)
  | _ => throw "no such turn"

/-- The first turn of a delegated call, before its observations are verified. -/
def clientSetTargetAllocation (client : PortfolioDelegationClient)
    (params : DelegatedSetTargetAllocationParams) : Call δ Unit := do
  let _ ← onPortfolio (getAuthorizedDelegation client client.agentId (some .allocation))
  onPortfolio (check (params.plan.isSome = params.signedObservations)
    "a plan requires signed observations, and vice versa")
  if let some plan := params.plan then
    onPortfolio (MonadExcept.ofExcept (vetNoSwaps plan.flow))
  await (.setTargetAllocation client params)

def auditKeys (expected actual : TargetAllocation) : List PlaceRef × List PlaceRef :=
  (actual.keys.filter fun key => key ∉ expected.keys,
    expected.keys.filter fun key => key ∉ actual.keys)

def continueSetTargetAllocation (client : PortfolioDelegationClient)
    (params : DelegatedSetTargetAllocationParams)
    (verifiedObservations : Option VerifiedPortfolioObservations) : Facet δ Nat := do
  let _ ← getAuthorizedDelegation client client.agentId none
  let current := (← get).targetAllocation.getD ∅
  let (extra, missing) := auditKeys current params.targetAllocation
  check (extra = []) s!"unauthorized allocations for {qList extra}"
  check (missing = []) s!"missing allocations for {qList missing}"
  submitTargetAllocation client client.agentId params verifiedObservations

/-- Go on when the observations are verified, if there are any. -/
def observationsVerified (turn : Nat) (outcome : Except String VerifiedPortfolioObservations) :
    Call δ Nat := do
  match (← get).turns.lookup turn with
  | some (.setTargetAllocation client params) =>
    dropTurn turn
    if params.signedObservations then
      let verifiedObservations ← onPortfolio (MonadExcept.ofExcept outcome)
      onPortfolio (continueSetTargetAllocation client params (some verifiedObservations))
    else onPortfolio (continueSetTargetAllocation client params none)
  | _ => throw "no such turn"

/-- The client that a planner's own call uses, and the feature that must be enabled. -/
def plannerClient (feature : PortfolioAutoFeatures → Bool) (name : String) :
    Call δ PortfolioDelegationClient := do
  let c ← get
  let inactive := s!"planner delegation must be active for portfolio {c.portfolio.portfolioId}"
  match c.plannerDelegation with
  | none => throw inactive
  | some client =>
    match ← attempt (onPortfolio (getAuthorizedDelegation client client.agentId none)) with
    | .error _ => throw inactive
    | .ok _ =>
      if (c.portfolio.enabledAutoFeatures.map feature).getD false then return client
      else throw s!"portfolio {c.portfolio.portfolioId} auto-feature {q name} must be enabled"

def vetPlannerPlan (plan : FundsFlowPlan) : Facet δ Unit := do
  MonadExcept.ofExcept (vetNoNewPositions ((← get).targetAllocation.getD ∅) plan.flow)

/-- The planner gives the plan of the flow that it has just started. -/
def submitPlannerPlan (flowId : Nat) (syncState : PortfolioSyncState) (plan : FundsFlowPlan) :
    Facet δ Nat := do
  vetPlannerPlan plan
  submitVersion syncState.policyVersion syncState.rebalanceCount
  resolveFlowPlan flowId plan
  return flowId

def plannerRebalance (params : DelegatedParams) (plan : FundsFlowPlan) : Call δ Nat := do
  let client ← plannerClient (fun features => features.rebalance.getD false) "rebalance"
  let flowId ← onPortfolio (submitRebalance client client.agentId params)
  onPortfolio (submitPlannerPlan flowId params.syncState plan)

def plannerClaimRewards (params : DelegatedParams) (plan : FundsFlowPlan) : Call δ Nat := do
  let client ← plannerClient (fun features => features.claimRewards.getD false) "claimRewards"
  let flowId ← onPortfolio (submitClaimRewards client client.agentId params)
  onPortfolio (submitPlannerPlan flowId params.syncState plan)

/-- A plan refused by the mandate rejects its flow. -/
def resolvePlan (flowId : Nat) (plan : FundsFlowPlan) (policyVersion rebalanceCount : Nat)
    (observations : Option PlanObservations) : Facet δ Unit := do
  vetPlannerPlan plan
  match ← attempt
      (validateAndCommitPlanPolicy flowId observations policyVersion rebalanceCount) with
  | .error reason =>
    submitVersion policyVersion rebalanceCount
    rejectFlowPlan flowId reason
  | .ok acceptedSyncState =>
    submitVersion acceptedSyncState.policyVersion acceptedSyncState.rebalanceCount
    resolveFlowPlan flowId plan

def rejectPlan (flowId : Nat) (reason : String) (policyVersion rebalanceCount : Nat) :
    Facet δ Unit := do
  submitVersion policyVersion rebalanceCount
  rejectFlowPlan flowId reason

/-- Every step of the parties and of what they wait for. -/
inductive Action (δ : Type) where
  | owner (request : OwnerRequest)
  | grant (grantee : String) (permissions : PortfolioPermissions)
  | setAutoFeatures (features : PortfolioAutoFeatures)
  | resume (turn : Nat)
  | settleDelivery (turn : Nat) (outcome : Option String)
  | setTargetAllocation (client : PortfolioDelegationClient)
      (params : DelegatedSetTargetAllocationParams)
  | observationsVerified (turn : Nat) (outcome : Except String VerifiedPortfolioObservations)
  | rebalance (client : PortfolioDelegationClient) (params : DelegatedParams)
  | claimRewards (client : PortfolioDelegationClient) (params : DelegatedParams)
  | resolvePlan (flowId : Nat) (plan : FundsFlowPlan) (policyVersion rebalanceCount : Nat)
      (observations : Option PlanObservations)
  | rejectPlan (flowId : Nat) (reason : String) (policyVersion rebalanceCount : Nat)
  | plannerRebalance (params : DelegatedParams) (plan : FundsFlowPlan)
  | plannerClaimRewards (params : DelegatedParams) (plan : FundsFlowPlan)
  | finishFlow (flowId : Nat)
  | accountsChanged (accounts : AccountsState δ)
  | providePosition (poolKey : PlaceRef)

/-- The flow that is started, if any. -/
def perform : Action δ → Call δ (Option Nat)
  | .owner request => onPortfolio (ownerRequest request)
  | .grant grantee permissions => (fun _ => none) <$> evmGrant grantee permissions
  | .setAutoFeatures features => (fun _ => none) <$> evmSetAutoFeatures features
  | .resume turn => (fun _ => none) <$> resume turn
  | .settleDelivery turn outcome => (fun _ => none) <$> settleDelivery turn outcome
  | .setTargetAllocation client params =>
    (fun _ => none) <$> clientSetTargetAllocation client params
  | .observationsVerified turn outcome => some <$> observationsVerified turn outcome
  | .rebalance client params => some <$> onPortfolio (submitRebalance client client.agentId params)
  | .claimRewards client params =>
    some <$> onPortfolio (submitClaimRewards client client.agentId params)
  | .resolvePlan flowId plan policyVersion rebalanceCount observations =>
    (fun _ => none) <$> onPortfolio
      (resolvePlan flowId plan policyVersion rebalanceCount observations)
  | .rejectPlan flowId reason policyVersion rebalanceCount =>
    (fun _ => none) <$> onPortfolio (rejectPlan flowId reason policyVersion rebalanceCount)
  | .plannerRebalance params plan => some <$> plannerRebalance params plan
  | .plannerClaimRewards params plan => some <$> plannerClaimRewards params plan
  | .finishFlow flowId => (fun _ => none) <$> onPortfolio (finishFlow flowId)
  | .accountsChanged accounts =>
    (fun _ => none) <$> onPortfolio (modify fun s => { s with accounts })
  | .providePosition poolKey =>
    (fun _ => none) <$> onPortfolio (modify fun s =>
      if poolKey ∈ s.positions then s else { s with positions := s.positions ++ [poolKey] })

end Contract

end AgoricSdk.Portfolio
