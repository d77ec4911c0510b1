import AgoricSdk.Portfolio.JobRuns
import AgoricSdk.Portfolio.MaxWeightClosure
import AgoricSdk.Portfolio.Places

/-!
Delegation limits: what an agent's permissions allow as a target allocation, and
which plans may be run for one, given observations of the balances.
-/

namespace AgoricSdk.Portfolio

abbrev TargetAllocation := Record PlaceRef Nat

structure PlanObservations where
  balances : Record PlaceRef Nat
  /-- The TVL of instruments, in whole USD. -/
  instrumentTvls : Record PlaceRef Nat

structure AllocationLimits where
  maxWeightBps : Option Nat := none
  minVaultTvlUsd : Option Nat := none
  maxVaultShareBps : Option Nat := none
  deriving DecidableEq

inductive AllocationPermission where
  | flag (allowed : Bool)
  | limits (limits : AllocationLimits)
  deriving DecidableEq

structure PortfolioPermissions where
  allocation : Option AllocationPermission := none
  rebalance : Option Bool := none
  claimRewards : Option Bool := none
  deriving DecidableEq

/-- For a reward claim or a swap only its presence matters here. -/
structure MovementDesc where
  amount : Nat
  src : PlaceRef
  dest : PlaceRef
  claimRewards : Bool := false
  swap : Bool := false
  deriving DecidableEq

/-- Without an order each step follows the one before. -/
structure FundsFlowPlan where
  flow : List MovementDesc
  order : Option JobOrder := none
  deriving DecidableEq

inductive PlanOperation where
  | move (src dest : PlaceRef) (amount : Nat)
  | claimRewards (src dest : PlaceRef)
  deriving DecidableEq

structure DecodedPlan where
  flow : List PlanOperation
  order : Option JobOrder := none
  deriving DecidableEq

section Quoting

def q (text : String) : String := "\"" ++ text ++ "\""

def qBigint (n : Int) : String := q ("[" ++ toString n ++ "n]")

def qList (texts : List String) : String := "[" ++ ",".intercalate (texts.map q) ++ "]"

def insist (p : Prop) [Decidable p] (message : String) : Except String Unit :=
  if p then pure () else throw message

end Quoting

section Mandate

/-- The limits, if the permission has any. -/
def PortfolioPermissions.limits (permissions : PortfolioPermissions) : Option AllocationLimits :=
  match permissions.allocation with
  | some (.limits limits) => some limits
  | _ => none

def needsObservations (permissions : PortfolioPermissions) : Bool :=
  match permissions.limits with
  | some limits => limits.minVaultTvlUsd.isSome || limits.maxVaultShareBps.isSome
  | none => false

def sumPortions (targetAllocation : TargetAllocation) : Nat := targetAllocation.values.sum

def assertMandateForAllocation (permissions : PortfolioPermissions)
    (targetAllocation : TargetAllocation) : Except String Unit :=
  match permissions.limits.bind AllocationLimits.maxWeightBps with
  | none => pure ()
  | some maxWeightBps =>
    let totalPortions := sumPortions targetAllocation
    let maxScaledPortion := maxWeightBps * totalPortions
    targetAllocation.entries.forM fun (instrument, portion) => do
      if isInterChainAccountRef instrument then return
      insist (0 < totalPortions) s!"mandate.maxWeight.zeroTotal:{q instrument}"
      insist (portion * 10000 ≤ maxScaledPortion)
        s!"mandate.maxWeight:{q instrument}: portion {qBigint portion} of total {qBigint totalPortions} exceeds maxWeightBps {qBigint maxWeightBps}"

def microUsdcPerUsd : Nat := 1000000

def assertMandateForPlanObservations (permissions : PortfolioPermissions)
    (targetAllocation : TargetAllocation) (observations : PlanObservations) :
    Except String Unit :=
  match permissions.limits with
  | none => pure ()
  | some limits =>
    if limits.minVaultTvlUsd = none ∧ limits.maxVaultShareBps = none then pure ()
    else
      let totalPortions := sumPortions targetAllocation
      let portfolioValueMicroUsd := observations.balances.values.sum
      targetAllocation.entries.forM fun (instrument, portion) => do
        if isInterChainAccountRef instrument ∨ portion = 0 then return
        match observations.instrumentTvls.get instrument with
        | none => throw s!"mandate.instrumentData.missing:{q instrument}"
        | some tvlUsd =>
          if let some minVaultTvlUsd := limits.minVaultTvlUsd then
            insist (minVaultTvlUsd ≤ tvlUsd)
              s!"mandate.minVaultTvl:{q instrument}: tvlUsd {qBigint tvlUsd} is below minVaultTvlUsd {qBigint minVaultTvlUsd}"
          if let some maxVaultShareBps := limits.maxVaultShareBps then
            insist (0 < totalPortions) s!"mandate.maxVaultShare.zeroTotal:{q instrument}"
            insist (portfolioValueMicroUsd * portion * 10000 ≤
                tvlUsd * microUsdcPerUsd * totalPortions * maxVaultShareBps)
              s!"mandate.maxVaultShare:{q instrument}: portion {qBigint portion} of total {qBigint totalPortions} with portfolio value {qBigint portfolioValueMicroUsd} micro-USD exceeds maxVaultShareBps {qBigint maxVaultShareBps} of vault tvlUsd {qBigint tvlUsd}"

end Mandate

section Vetting

def vetNoNewPositions (targetAllocation : TargetAllocation) (steps : List MovementDesc) :
    Except String Unit :=
  let destinations := (steps.map MovementDesc.dest).eraseDups
  let unexpected := destinations.filter fun dest =>
    isInstrumentId dest ∧ dest ∉ targetAllocation.keys
  insist (unexpected = []) s!"plan cannot add positions: {qList unexpected}"

def vetNoSwaps (steps : List MovementDesc) : Except String Unit :=
  steps.forM fun step => insist (¬ step.swap) "allocation plan does not support swap"

def decodeMovement (movement : MovementDesc) : Except String PlanOperation := do
  let src := movement.src
  let dest := movement.dest
  insist (isPortfolioBalancePlaceRef src)
    s!"allocation plan does not support deposit or withdrawal place {q src}"
  insist (isPortfolioBalancePlaceRef dest)
    s!"allocation plan does not support deposit or withdrawal place {q dest}"
  insist (src ≠ dest) s!"allocation plan does not support self-movement at {q src}"
  if ¬ movement.claimRewards then return .move src dest movement.amount
  let refusal := s!"claimRewards requires an instrument source and its chain account destination: {q src} -> {q dest}"
  insist (isInstrumentId src ∧ isInterChainAccountRef dest) refusal
  let chain ← chainOf src
  insist (dest = "@" ++ chain) refusal
  return .claimRewards src dest

def decodePlan (plan : FundsFlowPlan) : Except String DecodedPlan := do
  vetNoSwaps plan.flow
  let flow ← plan.flow.mapM decodeMovement
  return { flow, order := plan.order }

/-- Every current or planned place has a balance, and extra ones have none. -/
def vetObservationPlaces (currentPlaces : List PlaceRef) (plan : FundsFlowPlan)
    (observations : PlanObservations) : Except String Unit := do
  let planned := (plan.flow.flatMap fun step => [step.src, step.dest]).filter fun place =>
    isInstrumentId place || isInterChainAccountRef place
  let expected := (currentPlaces ++ planned).eraseDups
  let observed := observations.balances.keys
  let missing := expected.filter fun place => place ∉ observed
  insist (missing = []) s!"missing balance observation for {qList missing}"
  let extra := observed.filter fun place =>
    place ∉ expected ∧ observations.balances.get place ≠ some 0
  insist (extra = []) s!"unexpected balance observation for {qList extra}"

def maxChainAllocationDivergenceUusdc : Int := 1000000

/-- The positive excess of the places seen, by chain. -/
abbrev ExcessByChain := Record String Int

def addExcess (totalBalance : Int) (targetAllocation : TargetAllocation)
    (excessByChain : ExcessByChain) (entry : PlaceRef × Int) : Except String ExcessByChain := do
  let (place, balance) := entry
  let totalPortions := sumPortions targetAllocation
  if ¬ isInstrumentId place ∨ balance = 0 then return excessByChain
  insist (0 < totalPortions) "plan target allocation has zero total"
  let ceiling := (targetAllocation.get place).getD 0
  let excess := balance * totalPortions - totalBalance * ceiling
  if excess ≤ 0 then return excessByChain
  let chain ← chainOf place
  let chainExcess := (excessByChain.get chain).getD 0 + excess
  insist (chainExcess ≤ maxChainAllocationDivergenceUusdc * totalPortions)
    s!"plan final balance exceeds target allocation at {q place}: balance {qBigint balance} of total {qBigint totalBalance} vs target portion {qBigint ceiling} of {qBigint totalPortions}; positive excess on {q chain} exceeds the shared 1 USDC divergence budget"
  return excessByChain.set chain chainExcess

def vetAllocationCeilings (balances : Record PlaceRef Int) (targetAllocation : TargetAllocation) :
    Except String Unit := do
  let _ ← balances.entries.foldlM (addExcess balances.values.sum targetAllocation) ∅
  return

/-- The order that a plan is run in. -/
def planOrder (length : Nat) (order : Option JobOrder) : JobOrder := order.getD (fullOrder length)

/-- What a completed step adds to a place. -/
def operationDelta (place : PlaceRef) : PlanOperation → Int
  | .claimRewards _ _ => 0
  | .move src dest amount =>
    if dest = place then amount else if src = place then -amount else 0

def PlanOperation.places : PlanOperation → List PlaceRef
  | .move src dest _ => [src, dest]
  | .claimRewards src dest => [src, dest]

def vetInstrument (targetAllocation : TargetAllocation) (plan : DecodedPlan)
    (observations : PlanObservations) (dependencies : Dependencies) (place : PlaceRef) :
    Except String Unit := do
  let totalBalance : Int := observations.balances.values.sum
  let totalPortions : Int := sumPortions targetAllocation
  let initialBalance : Int := (observations.balances.get place).getD 0
  let maxDelta ← maxWeightClosure (List.range plan.flow.length)
    (fun index => (plan.flow[index]?.map (operationDelta place)).getD 0)
    (fun index => (dependencies.get index).getD [])
  let maxBalance := initialBalance + maxDelta
  let ceiling : Int := (targetAllocation.get place).getD 0
  let withinTarget := 0 < totalPortions ∧ maxBalance * totalPortions ≤ totalBalance * ceiling
  insist (withinTarget ∨ maxBalance ≤ initialBalance)
    s!"plan intermediate balance exceeds target allocation at {q place}: initial balance {qBigint initialBalance}, peak balance {qBigint maxBalance} of total {qBigint totalBalance} vs target portion {qBigint ceiling} of {qBigint totalPortions}"

def vetPartialPlanAllocation (targetAllocation : TargetAllocation) (plan : DecodedPlan)
    (observations : PlanObservations) : Except String Unit := do
  let dependencies ← makeDependencies plan.flow.length (planOrder plan.flow.length plan.order)
  let places := targetAllocation.keys ++ observations.balances.keys ++
    plan.flow.flatMap PlanOperation.places
  let instruments := (places.filter fun place => isInstrumentId place).eraseDups
  instruments.forM (vetInstrument targetAllocation plan observations dependencies)

section Projection

/-- A map of balances, where a place without an entry has none. -/
abbrev Balances := Record PlaceRef Int

def balanceAt (balances : Balances) (place : PlaceRef) : Int := (balances.get place).getD 0

def applyOperation (balances : Balances) : PlanOperation → Balances
  | .claimRewards _ _ => balances
  | .move src dest amount =>
    let balances := balances.set src (balanceAt balances src - amount)
    balances.set dest (balanceAt balances dest + amount)

def addDebit (debits : Balances) : PlanOperation → Balances
  | .claimRewards _ _ => debits
  | .move src _ amount => debits.set src (balanceAt debits src + amount)

/-- The operations of the steps. -/
def operationsAt (flow : List PlanOperation) (steps : List Nat) : List PlanOperation :=
  steps.filterMap fun ix => flow[ix]?

/-- Run the steps that are ready until all are completed. With dependencies without a
cycle some step is ready each time, so that there are no more rounds than steps. -/
def projectRounds (flow : List PlanOperation) :
    Nat → Schedule → Balances → Except String Balances
  | 0, _, balances => pure balances
  | rounds + 1, schedule, balances =>
    if ¬ schedule.pending then pure balances
    else do
      let (ready, schedule) := schedule.ready
      let operations := operationsAt flow ready
      (operations.foldl addDebit ∅).entries.forM fun (src, debit) =>
        insist (debit ≤ balanceAt balances src)
          s!"unfunded plan movement from {q src}: balance {qBigint (balanceAt balances src)} < debit {qBigint debit}"
      projectRounds flow rounds (ready.foldl (fun s ix => s.complete ix) schedule)
        (operations.foldl applyOperation balances)

def projectPlanBalances (plan : DecodedPlan) (observations : PlanObservations) :
    Except String Balances := do
  let balances := observations.balances.map fun (balance : Nat) => (balance : Int)
  let schedule ← makeSchedule
    { taskQty := plan.flow.length, order := planOrder plan.flow.length plan.order }
  plan.flow.forM fun operation =>
    match operation with
    | .claimRewards _ _ => pure ()
    | .move _ dest _ =>
      insist (¬ isInstrumentId dest ∨ observations.balances.has dest)
        s!"missing balance observation for {q dest}"
  projectRounds plan.flow plan.flow.length schedule balances

end Projection

def vetPlanAllocation (targetAllocation : TargetAllocation) (plan : FundsFlowPlan)
    (observations : PlanObservations) : Except String Unit := do
  let decodedPlan ← decodePlan plan
  decodedPlan.flow.forM fun operation =>
    match operation with
    | .claimRewards _ _ => throw "allocation plan does not support claimRewards"
    | .move _ _ _ => pure ()
  vetNoNewPositions targetAllocation plan.flow
  let balances ← projectPlanBalances decodedPlan observations
  vetAllocationCeilings balances targetAllocation
  vetPartialPlanAllocation targetAllocation decodedPlan observations

/-- Whether the allocation can be committed now, without waiting for a plan. -/
def vetAllocationPlan (permissions : PortfolioPermissions) (targetAllocation : TargetAllocation)
    (plan : Option FundsFlowPlan) (observations : Option PlanObservations) :
    Except String Bool := do
  assertMandateForAllocation permissions targetAllocation
  match plan with
  | none => return ¬ needsObservations permissions
  | some plan =>
    match observations with
    | none => throw "allocation plan requires observations"
    | some observations =>
      vetPlanAllocation targetAllocation plan observations
      assertMandateForPlanObservations permissions targetAllocation observations
      return true

end Vetting

end AgoricSdk.Portfolio
