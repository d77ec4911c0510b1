import AgoricSdk.Lib.Program
import AgoricSdk.Portfolio.Accounts
import AgoricSdk.Portfolio.DelegationLimits

/-!
A portfolio: its policy, its delegations and its running flows, with the facets
by which the contract changes them. A flow waits for a plan until its plan is
resolved or rejected.
-/

namespace AgoricSdk.Portfolio

open StateProgram

inductive Permission where
  | allocation
  | rebalance
  | claimRewards
  deriving DecidableEq

def Permission.key : Permission → String
  | allocation => "allocation"
  | rebalance => "rebalance"
  | claimRewards => "claimRewards"

/-- Is `permissions[permission]` truthy? A record of limits is. -/
def PortfolioPermissions.permits (permissions : PortfolioPermissions) : Permission → Bool
  | .allocation =>
    match permissions.allocation with
    | some (.flag allowed) => allowed
    | some (.limits _) => true
    | none => false
  | .rebalance => permissions.rebalance.getD false
  | .claimRewards => permissions.claimRewards.getD false

inductive PortfolioAgentGrantee where
  | address (address : String)
  | planner
  deriving DecidableEq

inductive PortfolioAgentState where
  | active
  | revoked
  deriving DecidableEq

def PortfolioAgentState.name : PortfolioAgentState → String
  | active => "active"
  | revoked => "revoked"

/-- Each grant makes a client of its own, that knows its agent. -/
structure PortfolioDelegationClient where
  agentId : Nat
  deriving DecidableEq

structure PortfolioAgentInfo where
  grantee : PortfolioAgentGrantee
  permissions : PortfolioPermissions
  state : PortfolioAgentState
  activeClient : Option PortfolioDelegationClient
  updatedAtPolicyVersion : Nat
  deriving DecidableEq

structure PortfolioAutoFeatures where
  rebalance : Option Bool := none
  claimRewards : Option Bool := none
  deriving DecidableEq

structure PortfolioSyncState where
  policyVersion : Nat
  rebalanceCount : Nat
  deriving DecidableEq

section Flows

inductive OperationStatus where
  | pending
  | ok (policyVersion : Nat)
  | error (error : String)
  deriving DecidableEq

/-- The operation that initiated a flow. -/
structure InitiatingOperation where
  targetAllocation : TargetAllocation
  status : OperationStatus

structure RebalanceDetail where
  /-- `agent${agentId}`, by its number. -/
  agent : Option Nat := none
  agentMemo : Option String := none
  initiatingOperation : Option InitiatingOperation := none
  createdAtPolicyVersion : Option Nat := none

inductive FlowDetail where
  | withdraw (amount : Nat) (toChain : Option String)
  | deposit (amount : Nat) (fromChain : Option String)
      (initiatingOperation : Option InitiatingOperation)
  | rebalance (detail : RebalanceDetail)
  | claimRewards (agent : Option Nat) (agentMemo : Option String)

def FlowDetail.agent : FlowDetail → Option Nat
  | withdraw _ _ | deposit _ _ _ => none
  | rebalance detail => detail.agent
  | claimRewards agent _ => agent

inductive PlanOutcome where
  | resolved (plan : FundsFlowPlan)
  | rejected (reason : String)

/-- The resolver of the vow for the plan is dropped when the vow is settled, so a flow
that still has it awaits its steps. -/
structure RunningFlow where
  sync : Option PlanOutcome
  detail : FlowDetail

def RunningFlow.awaitingSteps (flow : RunningFlow) : Bool := flow.sync.isNone

end Flows

structure PendingOwnerTransfer where
  evmAddress : String
  deadlineTimestampSeconds : Nat

structure PortfolioState (δ : Type) where
  portfolioId : Nat
  nextFlowId : Nat := 1
  flowsRunning : Table Nat RunningFlow := ∅
  delegations : Option (Table Nat PortfolioAgentInfo) := none
  plannerAgentId : Option Nat := none
  enabledAutoFeatures : Option PortfolioAutoFeatures := none
  targetAllocation : Option TargetAllocation := none
  policyVersion : Nat := 0
  rebalanceCount : Nat := 0
  /-- The EVM account that owns the portfolio, unless an Agoric account does. -/
  sourceAccountId : Option String := none
  pendingOwnerTransfer : Option PendingOwnerTransfer := none
  accounts : AccountsState δ := {}
  positions : List PlaceRef := []

abbrev Facet (δ α : Type) := EStateM String (PortfolioState δ) α

variable {δ : Type}

def check (p : Prop) [Decidable p] (message : String) : Facet δ Unit :=
  if p then pure () else throw message

section Stores

variable {α : Type}

def notFound (key : Nat) (collection : String) : String :=
  s!"key {key} not found in collection {q collection}"

def mapStoreGet (store : Table Nat α) (key : Nat) (collection : String) : Facet δ α :=
  match store.lookup key with
  | some value => pure value
  | none => throw (notFound key collection)

def getFlow (flowId : Nat) : Facet δ RunningFlow := do
  mapStoreGet (← get).flowsRunning flowId "flowsRunning"

def setFlow (flowId : Nat) (flow : RunningFlow) : Facet δ Unit :=
  modify fun s => { s with flowsRunning := s.flowsRunning.insert flowId flow }

def getDelegation (agentId : Nat) (noStore : String) : Facet δ PortfolioAgentInfo := do
  match (← get).delegations with
  | none => throw noStore
  | some delegations => mapStoreGet delegations agentId "delegations"

/-- Only for an agent with a record. -/
def setDelegation (agentId : Nat) (delegation : PortfolioAgentInfo) : Facet δ Unit :=
  modify fun s => { s with delegations := s.delegations.map fun t => t.insert agentId delegation }

end Stores

def agentKey (agentId : Nat) : String := q s!"agent{agentId}"

def flowKey (flowId : Nat) : String := q s!"flow{flowId}"

/-- Only the last allocated flow counts: an older one may be stuck. -/
def insistLatestFlowFinished : Facet δ Unit := do
  let s ← get
  check (¬ s.flowsRunning.has (s.nextFlowId - 1)) "portfolio already has a running flow"

section Reader

def checkVersion (versionPre countPre : Nat) : Facet δ Unit := do
  let s ← get
  check (s.policyVersion = versionPre)
    s!"expected policyVersion {s.policyVersion}; got {versionPre}"
  check (s.rebalanceCount = countPre)
    s!"expected rebalanceCount {s.rebalanceCount}; got {countPre}"

end Reader

section Reporter

def finishFlow (flowId : Nat) : Facet δ Unit :=
  modify fun s => { s with flowsRunning := s.flowsRunning.erase flowId }

end Reporter

section Manager

def bumpPolicyVersion : Facet δ Nat := do
  modify fun s => { s with policyVersion := s.policyVersion + 1, rebalanceCount := 0 }
  return (← get).policyVersion

def updateTargetAllocation (allocation : TargetAllocation) : Facet δ Nat := do
  modify fun s => { s with targetAllocation := some allocation }
  bumpPolicyVersion

/-- With steps the vow for the plan is resolved at once. -/
def startFlow (detail : FlowDetail) (steps : Option FundsFlowPlan) : Facet δ Nat := do
  let flowId := (← get).nextFlowId
  modify fun s => { s with nextFlowId := flowId + 1 }
  check (¬ (← get).flowsRunning.has flowId) s!"key {flowId} already registered in collection"
  setFlow flowId { sync := steps.map .resolved, detail }
  modify fun s => { s with accounts := releasePendingAccounts s.accounts }
  return flowId

def grantDelegation (grantee : PortfolioAgentGrantee) (permissions : PortfolioPermissions) :
    Facet δ (Nat × PortfolioAgentInfo) := do
  modify fun s => { s with delegations := some (s.delegations.getD ∅) }
  let delegations := (← get).delegations.getD ∅
  let nextAgentId := delegations.size + 1
  let updatedAtPolicyVersion ← bumpPolicyVersion
  check (¬ delegations.has nextAgentId) s!"key {nextAgentId} already registered in collection"
  let delegation : PortfolioAgentInfo := {
    grantee, permissions, updatedAtPolicyVersion
    state := .active
    activeClient := some { agentId := nextAgentId } }
  setDelegation nextAgentId delegation
  return (nextAgentId, delegation)

/-- The delivery of a grant failed. -/
def withdrawGrant (agentId : Nat) (granted : PortfolioAgentInfo) : Facet δ Unit :=
  setDelegation agentId { granted with state := .revoked, activeClient := none }

def changePermissions (agentId : Nat) (permissions : PortfolioPermissions) : Facet δ Unit := do
  let missing := s!"no delegation found for {agentKey agentId}"
  check (((← get).delegations.getD ∅).has agentId) missing
  let delegation ← getDelegation agentId missing
  check (delegation.state = .active)
    s!"delegation {agentKey agentId} is {q delegation.state.name}"
  let updatedAtPolicyVersion ← bumpPolicyVersion
  setDelegation agentId { delegation with permissions, updatedAtPolicyVersion }

def revokeDelegation (agentId : Nat) : Facet δ Unit := do
  let delegation ← getDelegation agentId "no delegations available"
  let updatedAtPolicyVersion ← bumpPolicyVersion
  let revoked := { delegation with
    state := .revoked, activeClient := none, updatedAtPolicyVersion }
  setDelegation agentId revoked
  modify fun s =>
    if s.plannerAgentId = some agentId then
      { s with plannerAgentId := none, enabledAutoFeatures := none }
    else s

end Manager

section Planner

def InitiatingOperation.isPending (operation : InitiatingOperation) : Bool :=
  operation.status = .pending

/-- Was the target allocation of this rebalance committed before? -/
def RebalanceDetail.targetAllocationAlreadyCommitted (detail : RebalanceDetail) : Bool :=
  detail.initiatingOperation.any fun operation =>
    match operation.status with
    | .ok _ => true
    | _ => false

def FlowDetail.pendingTargetAllocation : FlowDetail → Option TargetAllocation
  | .rebalance detail =>
    (detail.initiatingOperation.filter InitiatingOperation.isPending).map (·.targetAllocation)
  | _ => none

def FlowDetail.withStatus (status : OperationStatus) : FlowDetail → FlowDetail
  | .rebalance detail => .rebalance { detail with
      initiatingOperation := detail.initiatingOperation.map fun operation =>
        { operation with status } }
  | detail => detail

def resolvePendingPolicy (flowId policyVersion : Nat) : Facet δ Unit := do
  let flow ← getFlow flowId
  match flow.detail with
  | .rebalance { initiatingOperation := some operation, .. } =>
    check operation.isPending
      s!"{flowKey flowId} setTargetAllocation operation is not pending"
    setFlow flowId { flow with detail := flow.detail.withStatus (.ok policyVersion) }
  | _ => throw s!"{flowKey flowId} has no pending setTargetAllocation operation"

/-- A flow that does not run, or has its plan, is left as it is. -/
def rejectFlowPlan (flowId : Nat) (reason : String) : Facet δ Unit := do
  match (← get).flowsRunning.lookup flowId with
  | none => pure ()
  | some flow =>
    if ¬ flow.awaitingSteps then pure ()
    else
      let detail := if flow.detail.pendingTargetAllocation.isSome
        then flow.detail.withStatus (.error reason) else flow.detail
      setFlow flowId { sync := some (.rejected reason), detail }

structure FlowPlanContext where
  flowType : String
  isEvmPortfolio : Bool
  fromChain : Option String := none
  toChain : Option String := none

def FlowDetail.context (isEvmPortfolio : Bool) : FlowDetail → FlowPlanContext
  | .withdraw _ toChain => { flowType := "withdraw", isEvmPortfolio, toChain }
  | .deposit _ fromChain _ => { flowType := "deposit", isEvmPortfolio, fromChain }
  | .rebalance _ => { flowType := "rebalance", isEvmPortfolio }
  | .claimRewards _ _ => { flowType := "claimRewards", isEvmPortfolio }

def checkSeatPlace (context : FlowPlanContext) (keyword : String) (ref : PlaceRef) :
    Except String Unit := do
  insist (¬ context.isEvmPortfolio) s!"EVM portfolio has no seat for {q ref}"
  let expected := if keyword = "Cash" then "withdraw" else "deposit"
  insist (context.flowType = expected) s!"{q ref} not allowed in {q context.flowType} flow"

def checkEvmOwnerPlace (context : FlowPlanContext) (expected chain : String)
    (flowChain : Option String) (ref : PlaceRef) : Except String Unit := do
  insist context.isEvmPortfolio s!"portfolio has no EVM owner for {q ref}"
  insist (context.flowType = expected) s!"{q ref} not allowed in {q context.flowType} flow"
  let chainText := q (flowChain.getD "undefined")
  insist (some chain = flowChain) s!"{q ref} does not match flow chain {chainText}"

def vetFlowPlanPlaces (context : FlowPlanContext) (steps : List MovementDesc) :
    Except String Unit :=
  steps.forM fun { src, dest, .. } => do
    if let some srcKeyword ← getKeywordOfPlaceRef src then
      insist (srcKeyword = "Deposit") s!"{q src} cannot be a source"
      checkSeatPlace context srcKeyword src
    if let some destKeyword ← getKeywordOfPlaceRef dest then
      insist (destKeyword = "Cash") s!"{q dest} cannot be a destination"
      checkSeatPlace context destKeyword dest
    if let some depositChain ← getDepositChainOfPlaceRef src then
      checkEvmOwnerPlace context "deposit" depositChain context.fromChain src
    if let some withdrawChain ← getWithdrawChainOfPlaceRef dest then
      checkEvmOwnerPlace context "withdraw" withdrawChain context.toChain dest

def resolveFlowPlan (flowId : Nat) (plan : FundsFlowPlan) : Facet δ Unit := do
  let flow ← getFlow flowId
  check flow.awaitingSteps s!"{flowKey flowId} has already been resolved"
  match vetFlowPlanPlaces (flow.detail.context (← get).sourceAccountId.isSome) plan.flow with
  | .error reason =>
    -- Fail the flow rather than leave it waiting for another plan.
    rejectFlowPlan flowId reason
    throw reason
  | .ok () => setFlow flowId { flow with sync := some (.resolved plan) }

/-- A plan for an allocation that is not committed is good for one policy version only. -/
def checkCreatedAt (detail : FlowDetail) : Facet δ Unit := do
  if let .rebalance rebalance := detail then
    check (rebalance.targetAllocationAlreadyCommitted ∨
        rebalance.createdAtPolicyVersion = some (← get).policyVersion)
      "mandate.policyVersion.changed"

def assertMandate (permissions : PortfolioPermissions) (targetAllocation : TargetAllocation)
    (observations : Option PlanObservations) : Except String Unit := do
  assertMandateForAllocation permissions targetAllocation
  if needsObservations permissions then
    match observations with
    | none => throw "mandate.observations.missing"
    | some planObservations =>
      assertMandateForPlanObservations permissions targetAllocation planObservations

def commitPendingTargetAllocation (flowId : Nat) (detail : FlowDetail) : Facet δ Unit := do
  if let some pendingTargetAllocation := detail.pendingTargetAllocation then
    let resultingPolicyVersion ← updateTargetAllocation pendingTargetAllocation
    resolvePendingPolicy flowId resultingPolicyVersion

/-- The agent's plan is checked against its permissions as they are now. -/
def validateAndCommitPlanPolicy (flowId : Nat) (observations : Option PlanObservations)
    (versionPre countPre : Nat) : Facet δ PortfolioSyncState := do
  checkVersion versionPre countPre
  let { detail, .. } ← getFlow flowId
  if let some agentId := detail.agent then
    checkCreatedAt detail
    let { permissions, .. } ← getDelegation agentId s!"missing mandate for {agentKey agentId}"
    match detail.pendingTargetAllocation <|> (← get).targetAllocation with
    | none => throw "mandate.targetAllocation.missing"
    | some targetAllocation =>
      MonadExcept.ofExcept (assertMandate permissions targetAllocation observations)
      commitPendingTargetAllocation flowId detail
  let { policyVersion, rebalanceCount, .. } ← get
  return { policyVersion, rebalanceCount }

def submitVersion (versionPre countPre : Nat) : Facet δ Unit := do
  checkVersion versionPre countPre
  modify fun s => { s with rebalanceCount := s.rebalanceCount + 1 }

end Planner

end AgoricSdk.Portfolio
