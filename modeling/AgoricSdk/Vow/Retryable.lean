import AgoricSdk.Lib.Program
import AgoricSdk.Lib.Table
import AgoricSdk.Lib.Transition

/-!
Retryable functions. Each activation is a flow whose runs all report to one watcher, over
upgrades of the vat, and whose outcome is a vow. Flows can be restarted while a run is in
flight, so several runs of one flow may be.
-/

namespace AgoricSdk.Vow

open StateProgram

variable {ν κ α : Type}

section VowInternals

inductive Result (ν : Type) where
  | fulfilled (value : ν)
  | rejected (reason : ν)
  deriving DecidableEq

def Result.value : Result ν → ν
  | .fulfilled value => value
  | .rejected reason => reason

inductive StepStatus where
  | pending
  | fulfilled
  | rejected
  deriving DecidableEq

/-- A value that cannot be stored is replaced by an error that explains it. -/
inductive StepValue (ν : Type) where
  | undefined
  | value (value : ν)
  | notStored
  deriving DecidableEq

/-- The step status is `none` if the promise step hasn't settled yet. -/
structure VowInternals (ν : Type) where
  value : StepValue ν := .undefined
  stepStatus : Option StepStatus := none
  isStoredValue : Bool := false
  deriving DecidableEq

/-- The state of a vow that has settled. -/
def settledStep (isStorable : ν → Bool) (stepStatus : StepStatus) (value : ν) : VowInternals ν where
  value := if isStorable value then .value value else .notStored
  stepStatus := some stepStatus
  isStoredValue := isStorable value

end VowInternals

section World

/-- The state of an activation. Its outcome vow is known by number. -/
structure RetryableFlow (ν κ : Type) where
  activationArgs : List ν
  outcomeKit : ℕ
  lastRetryReason : Option κ := none
  runs : ℕ := 0
  isDone : Bool := false
  deriving DecidableEq

structure Run where
  flow : ℕ
  runId : ℕ
  deriving DecidableEq

inductive RetryFailure where
  | cannotRestart (flow : ℕ)
  | cannotResolve (flow : ℕ)
  | cannotReject (flow : ℕ)
  | alreadyRegistered (key : ℕ)
  | notFound (key : ℕ)
  deriving DecidableEq

/-- `calling` holds the runs whose function has not returned, the innermost first. Of the
results that are watched, those that have not settled are `none`. The last three fields tell
what has happened. -/
structure RetryWorld (ν κ : Type) where
  flows : List (RetryableFlow ν κ) := []
  vows : List (VowInternals ν) := []
  flowForOutcomeVowKey : Table ℕ ℕ := ∅
  calling : List (Run × List ν) := []
  watched : List (Run × Option (Result ν)) := []
  nextSteps : List (ℕ × ν) := []
  resolverToNonStoredValue : Table ℕ ν := ∅
  reports : List (Run × Result ν) := []
  settlements : List (ℕ × Result ν) := []
  failures : List RetryFailure := []

abbrev Retry (ν κ α : Type) := EStateM RetryFailure (RetryWorld ν κ) α

def getFlow (flow : ℕ) : Retry ν κ (RetryableFlow ν κ) := do
  match (← get).flows[flow]? with
  | some state => return state
  | none => throw (.notFound flow)

def setFlow (flow : ℕ) (state : RetryableFlow ν κ) : Retry ν κ Unit :=
  modify fun w => { w with flows := w.flows.set flow state }

end World

section Resolver

def makeVowKit : Retry ν κ ℕ := do
  let vow := (← get).vows.length
  modify fun w => { w with vows := w.vows ++ [{}] }
  return vow

def stepStatus (vow : ℕ) : Retry ν κ (Option StepStatus) := do
  return ((← get).vows[vow]?).bind VowInternals.stepStatus

def setStep (vow : ℕ) (step : VowInternals ν) : Retry ν κ Unit :=
  modify fun w => { w with vows := w.vows.set vow step }

/-- The outcome of the step is known, and a value that cannot be stored is kept in memory. -/
def settleStep (isStorable : ν → Bool) (vow : ℕ) (status : StepStatus) (value : ν)
    (result : Result ν) : Retry ν κ Unit := do
  setStep vow (settledStep isStorable status value)
  if isStorable value = false then
    modify fun w => { w with
      resolverToNonStoredValue := w.resolverToNonStoredValue.insert vow value }
  modify fun w => { w with settlements := w.settlements ++ [(vow, result)] }

def watchNextStepOnFulfilled (isStorable : ν → Bool) (vow : ℕ) (value : ν) : Retry ν κ Unit :=
  settleStep isStorable vow .fulfilled value (.fulfilled value)

def watchNextStepOnRejected (isStorable : ν → Bool) (vow : ℕ) (reason : ν) : Retry ν κ Unit :=
  settleStep isStorable vow .rejected reason (.rejected reason)

/-- The value is watched as a promise, so that the step settles in a later turn. -/
def resolve (vow : ℕ) (value : ν) : Retry ν κ Unit := do
  if (← stepStatus vow) = none then
    setStep vow { stepStatus := some .pending }
    modify fun w => { w with nextSteps := w.nextSteps ++ [(vow, value)] }

def reject (isStorable : ν → Bool) (vow : ℕ) (reason : ν) : Retry ν κ Unit := do
  if (← stepStatus vow) = none then
    setStep vow { stepStatus := some .rejected }
    watchNextStepOnRejected isStorable vow reason

end Resolver

section Flow

variable (isStorable : ν → Bool) (isRetryableReason : ν → Option κ → Option κ)

def initFlow (vow flow : ℕ) : Retry ν κ Unit := do
  if (← get).flowForOutcomeVowKey.has vow then throw (.alreadyRegistered vow)
  modify fun w => { w with flowForOutcomeVowKey := w.flowForOutcomeVowKey.insert vow flow }

def deleteFlow (vow : ℕ) : Retry ν κ Unit := do
  if (← get).flowForOutcomeVowKey.has vow = false then throw (.notFound vow)
  modify fun w => { w with flowForOutcomeVowKey := w.flowForOutcomeVowKey.erase vow }

def getFlowForOutcomeVow (vow : ℕ) : Retry ν κ ℕ := do
  match (← get).flowForOutcomeVowKey.lookup vow with
  | some flow => return flow
  | none => throw (.notFound vow)

/-- Call the retryable function with the original arguments, up to the call itself. -/
def restart (flow : ℕ) : Retry ν κ Unit := do
  let state ← getFlow flow
  if state.isDone then throw (.cannotRestart flow)
  let runId := state.runs + 1
  setFlow flow { state with runs := runId }
  modify fun w => { w with calling := (⟨flow, runId⟩, state.activationArgs) :: w.calling }

/-- The outcome vow has been resolved or rejected, and the flow is done. -/
def finish (flow : ℕ) : Retry ν κ Unit := do
  let state ← getFlow flow
  deleteFlow state.outcomeKit
  setFlow flow { state with isDone := true }

def onFulfilled (value : ν) (run : Run) : Retry ν κ Unit := do
  let { runs, outcomeKit, isDone, .. } ← getFlow run.flow
  if run.runId = runs then
    if isDone then throw (.cannotResolve run.flow)
    resolve outcomeKit value
    finish run.flow

def onRejected (reason : ν) (run : Run) : Retry ν κ Unit := do
  let state ← getFlow run.flow
  if run.runId = state.runs then
    if state.isDone then throw (.cannotReject run.flow)
    match isRetryableReason reason state.lastRetryReason with
    | some retryReason =>
      setFlow run.flow { state with lastRetryReason := some retryReason }
      restart run.flow
    | none =>
      reject isStorable state.outcomeKit reason
      finish run.flow

def makeRetryableFlowKit (activationArgs : List ν) : Retry ν κ Unit := do
  let outcomeKit ← makeVowKit
  let flow := (← get).flows.length
  modify fun w => { w with flows := w.flows ++ [{ activationArgs, outcomeKit }] }
  initFlow outcomeKit flow
  restart flow

end Flow

section Steps

/-- The results that are in flight settle in any order, and the watcher receives those that
have settled in any order. `returns` gives the result if it has settled, as it has when the
function throws. An upgrade rejects the results that are `lost`. -/
inductive RetryEvent (ν : Type) where
  | activate (args : List ν)
  | restart (flow : ℕ)
  | returns (result : Option (Result ν))
  | settles (i : ℕ) (result : Result ν)
  | reports (i : ℕ)
  | nextStep (i : ℕ)
  | upgrade (lost : Run → Bool) (disconnection : ν)

/-- A failure goes to the caller, and what was done before it stays done. -/
def RetryWorld.run (m : Retry ν κ α) (w : RetryWorld ν κ) : RetryWorld ν κ :=
  match m w with
  | .ok _ t => t
  | .error failure t => { t with failures := t.failures ++ [failure] }

def loseResult (lost : Run → Bool) (disconnection : ν) :
    Run × Option (Result ν) → Run × Option (Result ν)
  | (run, none) => (run, if lost run then some (.rejected disconnection) else none)
  | settled => settled

variable (isStorable : ν → Bool) (isRetryableReason : ν → Option κ → Option κ)

def resultWatcher (run : Run) : Result ν → Retry ν κ Unit
  | .fulfilled value => onFulfilled value run
  | .rejected reason => onRejected isStorable isRetryableReason reason run

/-- Callbacks are turns of their own, and an upgrade comes between cranks: when no function
is being called, and none of the vat's own promises has callbacks to make. -/
def retryStep (w : RetryWorld ν κ) : RetryEvent ν → Option (RetryWorld ν κ)
  | .activate args => some (w.run (makeRetryableFlowKit args))
  | .restart flow => if flow < w.flows.length then some (w.run (restart flow)) else none
  | .returns result =>
    match w.calling with
    | [] => none
    | (run, _) :: calling => some { w with calling, watched := w.watched ++ [(run, result)] }
  | .settles i result =>
    match w.watched[i]? with
    | some (run, none) => some { w with watched := w.watched.set i (run, some result) }
    | _ => none
  | .reports i =>
    match w.calling, w.watched[i]? with
    | [], some (run, some result) =>
      some <| RetryWorld.run (resultWatcher isStorable isRetryableReason run result) { w with
        watched := w.watched.eraseIdx i
        reports := w.reports ++ [(run, result)] }
    | _, _ => none
  | .nextStep i =>
    match w.calling, w.nextSteps[i]? with
    | [], some (vow, value) =>
      some <| RetryWorld.run (watchNextStepOnFulfilled isStorable vow value) { w with
        nextSteps := w.nextSteps.eraseIdx i }
    | _, _ => none
  | .upgrade lost disconnection =>
    match w.calling, w.nextSteps with
    | [], [] => some { w with
        watched := w.watched.map (loseResult lost disconnection)
        resolverToNonStoredValue := ∅ }
    | _, _ => none

def retryable : TransitionSystem (RetryWorld ν κ) (RetryEvent ν) where
  init w := w = {}
  step := retryStep isStorable isRetryableReason

/-- What asking the vow for its outcome gives: nothing while it is pending, and no value if it
was not stored and the vat has been upgraded. -/
def RetryWorld.shorten (w : RetryWorld ν κ) (vow : ℕ) : Option (Option (Result ν)) :=
  match w.vows[vow]? with
  | some { stepStatus := some .fulfilled, isStoredValue, value } =>
    match isStoredValue, value, w.resolverToNonStoredValue.lookup vow with
    | true, .value value, _ => some (some (.fulfilled value))
    | _, _, some value => some (some (.fulfilled value))
    | _, _, none => some none
  | some { stepStatus := some .rejected, value, .. } =>
    match w.resolverToNonStoredValue.lookup vow, value with
    | some reason, _ => some (some (.rejected reason))
    | none, .value reason => some (some (.rejected reason))
    | none, _ => some none
  | _ => none

end Steps

end AgoricSdk.Vow
