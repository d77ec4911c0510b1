import AgoricSdk.Portfolio.NaturalSort
import AgoricSdk.Portfolio.Places
import AgoricSdk.Portfolio.ScheduleOrder
import AgoricSdk.Timer.Numbers

/-!
The order of the steps of a plan. Flows are scheduled one after the other, each once its
source has enough in hand, and draw on the initial supply and on earlier inflows in the
order in which these were added; the inflows drawn on are what a step has to wait for.
-/

namespace AgoricSdk.Portfolio

structure FlowEdge where
  id : String
  src : PlaceRef
  dest : PlaceRef
  deriving DecidableEq

structure SolvedEdgeFlow where
  edge : FlowEdge
  flow : Nat
  deriving DecidableEq

structure Inflow where
  /-- The step that brings it; the initial supply is there without any. -/
  stepIdx : Option Nat
  unclaimed : Nat
  deriving DecidableEq

/-- The number that a computation with natural numbers is rounded to. -/
def toNumber (n : Nat) : Nat := ⌊Timer.binary64.round n⌋₊

structure OrderState where
  available : Record PlaceRef Nat
  inflows : Record PlaceRef (List Inflow)
  scheduled : List Nat := []
  order : List (Nat × List Nat) := []
  lastChain : Option String := none

structure StepsPlan where
  prioritized : List SolvedEdgeFlow
  order : Option (List (Nat × List Nat))
  deriving DecidableEq

/-- Draw on the inflows one after the other; the steps that they wait for come along. -/
def claimInflows : List Inflow → Nat → List Inflow × List Nat
  | [], _ => ([], [])
  | inflow :: inflows, unfunded =>
    if unfunded = 0 then (inflow :: inflows, [])
    else if inflow.unclaimed = 0 then
      let (inflows, prereqs) := claimInflows inflows unfunded
      (inflow :: inflows, prereqs)
    else
      let claimed := min inflow.unclaimed unfunded
      let (inflows, prereqs) := claimInflows inflows (toNumber (unfunded - claimed))
      ({ inflow with unclaimed := toNumber (inflow.unclaimed - claimed) } :: inflows,
        inflow.stepIdx.toList ++ prereqs)

def supplyAt (available : Record PlaceRef Nat) (place : PlaceRef) : Nat :=
  (available.get place).getD 0

/-- Flows that can execute with what is in hand. -/
def candidates (flows : List SolvedEdgeFlow) (s : OrderState) : List (SolvedEdgeFlow × Nat) :=
  flows.zipIdx.filter fun (flow, i) =>
    i ∉ s.scheduled ∧ flow.flow ≤ supplyAt s.available flow.edge.src

def fromSameChain (lastChain : String) :
    List (SolvedEdgeFlow × Nat) → Except String (List (SolvedEdgeFlow × Nat))
  | [] => pure []
  | c :: cs => do
    let chain ← chainOf c.1.edge.src
    let rest ← fromSameChain lastChain cs
    return if chain = lastChain then c :: rest else rest

/-- Prefer to go on with the last chain. -/
def chooseGroup (candidates : List (SolvedEdgeFlow × Nat)) :
    Option String → Except String (List (SolvedEdgeFlow × Nat))
  | none => pure candidates
  | some lastChain =>
    if lastChain = "" then pure candidates
    else do
      let sameChain ← fromSameChain lastChain candidates
      return if sameChain = [] then candidates else sameChain

def remainingFlow (s : OrderState) : SolvedEdgeFlow × Nat → Option String
  | (f, idx) =>
    if idx ∈ s.scheduled then none
    else
      let srcSupply := ((s.available.get f.edge.src).map toString).getD "undefined"
      some (s!"{idx}: {f.edge.id} {f.edge.src}({srcSupply}) -> {f.edge.dest} needs {f.flow}")

def deadlockMessage (flows : List SolvedEdgeFlow) (s : OrderState) : String :=
  "Scheduling deadlock: no flows can be executed. Remaining:\n" ++
    String.intercalate "\n" (flows.zipIdx.filterMap (remainingFlow s))

/-- Fund the step and record what it takes and brings. -/
def recordStep (stepIdx : Nat) (chosen : SolvedEdgeFlow) (flowIdx : Nat) (lastChain : String)
    (s : OrderState) : OrderState :=
  let src := chosen.edge.src
  let dest := chosen.edge.dest
  let (srcInflows, prereqs) := claimInflows ((s.inflows.get src).getD []) chosen.flow
  let inflows := s.inflows.set src srcInflows
  let destInflows := (inflows.get dest).getD []
  let available := s.available.set src (toNumber (supplyAt s.available src - chosen.flow))
  { available := available.set dest (toNumber (supplyAt available dest + chosen.flow))
    inflows := inflows.set dest (destInflows ++ [⟨some stepIdx, chosen.flow⟩])
    scheduled := s.scheduled ++ [flowIdx]
    order := if prereqs = [] then s.order else s.order ++ [(stepIdx, prereqs)]
    lastChain := some lastChain }

def scheduleStep (flows : List SolvedEdgeFlow) (stepIdx : Nat) (s : OrderState) :
    Except String OrderState := do
  let chosenGroup ← chooseGroup (candidates flows s) s.lastChain
  match chosenGroup.insertionSort fun a b => naturalCompare a.1.edge.id b.1.edge.id ≠ .gt with
  | [] => throw (deadlockMessage flows s)
  | (chosen, flowIdx) :: _ =>
    let lastChain ← chainOf chosen.edge.src
    return recordStep stepIdx chosen flowIdx lastChain s

/-- Schedule as many steps, from the given one on. -/
def scheduleSteps (flows : List SolvedEdgeFlow) :
    Nat → Nat → OrderState → Except String OrderState
  | 0, _, s => pure s
  | n + 1, stepIdx, s => do
    let s ← scheduleStep flows stepIdx s
    scheduleSteps flows n (stepIdx + 1) s

/-- Each step but the first depends on exactly the one before. -/
def isTrivialOrder (s : OrderState) : Bool :=
  s.order.length + 1 = s.scheduled.length ∧
    s.order.zipIdx.all fun (entry, i) => entry = (i + 1, [i])

def computePartialOrder (flows : List SolvedEdgeFlow) (initialSupplies : Record PlaceRef Nat) :
    Except String StepsPlan :=
  if flows = [] then pure { prioritized := [], order := none }
  else do
    let s ← scheduleSteps flows flows.length 0
      { available := initialSupplies
        inflows := initialSupplies.map fun value => [⟨none, value⟩] }
    let prioritized := s.scheduled.filterMap fun idx => flows[idx]?
    return { prioritized, order := if isTrivialOrder s then none else some s.order }

/-- The order in which the steps are to run. -/
def StepsPlan.jobOrder (plan : StepsPlan) : JobOrder :=
  match plan.order with
  | some order =>
    order.map fun (target, prereqs) => ((target : Int), prereqs.map fun p : Nat => (p : Int))
  | none => fullOrder plan.prioritized.length

end AgoricSdk.Portfolio
