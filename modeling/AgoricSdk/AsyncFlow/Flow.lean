import AgoricSdk.AsyncFlow.ReplayMembrane
import AgoricSdk.Lib.Transition

/-!
The flow around a replay membrane: starting, waking, completing and panicking,
and the system of everything that can happen to one activation. A guest is any
function: it is known by the calls it makes. Its first turn runs inside
`restart`, between the events `restart` and `guestReturns`.
-/

namespace AgoricSdk.AsyncFlow

open StateProgram

section Admin

/-- `admin.reset` -/
def adminReset : FlowM Unit := do
  let flow ← get
  if flow.isDone then throw "Cannot reset a done flow"
  else do
    modify fun flow => { flow with failure := none }
    dropMembrane
    logReset
    bijectionReset

/-- `admin.complete` -/
def complete : FlowM Unit := do
  adminReset
  modify fun flow => { flow with eagerWaker := false, forOutcomeVow := false, isDone := true }
  logDispose
  let flowState ← getFlowState
  if flowState = .done then pure () else throw "Complete flow must be Done"

end Admin

section Restart

variable (isStorable : HostCap → Bool)

def makeReplayMembrane : FlowM Nat := do
  let flow ← get
  let m := flow.nextMembrane
  modify fun flow =>
    { flow with
      nextMembrane := m + 1
      membrane := some ⟨m, ∅, [], false, [], none⟩ }
  pure m

/-- `restart` up to the call of the guest function: the membrane in charge and the
arguments for the guest. -/
def restartGuest (eager : Bool) : FlowM (Nat × GuestValue) := do
  let startFlowState ← getFlowState
  if startFlowState = .done then throw "Cannot restart a done flow"
  else do
    adminReset
    modify fun flow => { flow with eagerWaker := eager }
    let m ← makeReplayMembrane
    let flow ← get
    let guestArgs ← hostToGuest isStorable flow.activationArgs
    let flowState ← getFlowState
    if flowState = .running ∨ flowState = .replaying then do
      membraneWake isStorable m
      pure (m, guestArgs)
    else throw "Restarted flow must be Running or Replaying"

/-- The rest of `restart`, when the guest function has returned its promise. -/
def registerGuestResult : FlowM Unit := do
  let flowState ← getFlowState
  if flowState ≠ .failed then do
    let flow ← get
    let guestResultP := GuestCap.own flow.nextGuest
    modify fun flow => { flow with nextGuest := flow.nextGuest + 1 }
    let _ ← unwrapInit guestResultP (.vow flow.outcomeVow)
    modifyMembrane fun membrane => { membrane with guestResultP := some guestResultP }
  else pure ()

/-- The calls that a guest makes in one turn, each with what the host method would
do, and how the guest goes on with the answer. -/
inductive GuestTurn where
  | finished
  | call (guestTarget : GuestCap) (optVerb : Option String) (guestArgs : GuestValue)
      (reply : HostReply) (next : Answer → GuestTurn)

def runGuest (m : Nat) : GuestTurn → FlowM Unit
  | .finished => pure ()
  | .call guestTarget optVerb guestArgs reply next => do
    let answer ← guestMethod isStorable m guestTarget optVerb guestArgs reply
    runGuest m (next answer)

def restart (eager : Bool) (guestAsyncFunc : GuestValue → GuestTurn) : FlowM Unit := do
  let (m, guestArgs) ← restartGuest isStorable eager
  runGuest isStorable m (guestAsyncFunc guestArgs)
  registerGuestResult

/-- `flow.wake` -/
def wake (startEager : Bool) (guestAsyncFunc : GuestValue → GuestTurn) : FlowM Unit := do
  let flowState ← getFlowState
  match flowState with
  | .done | .failed => pure ()
  | .running | .replaying => do
    let flow ← get
    match flow.membrane with
    | some membrane => membraneWake isStorable membrane.id
    | none => throw "membrane not found"
  | .sleeping => restart isStorable startEager guestAsyncFunc

def settlementToHost : Settlement GuestValue → FlowM (Settlement HostValue)
  | .fulfilled gFulfillment => Settlement.fulfilled <$> guestToHost gFulfillment
  | .rejected guestReason => Settlement.rejected <$> guestToHost guestReason

/-- The handlers of `E.when(guestResultP, ..)`. -/
def settleOutcome (m : Nat) (settlement : Settlement GuestValue) : FlowM Unit := do
  let flow ← get
  match flow.membrane with
  | none => pure ()
  | some membrane =>
    match membrane.guestResultP with
    | none => pure ()
    | some guestResultP =>
      if membrane.id = m ∧ flow.g2h.has guestResultP = true then
        if flow.isReplaying then panic "guest settled before finishing replay"
        else do
          let outcome ← settlementToHost settlement
          modify fun flow => { flow with outcome := some (flow.outcome.getD outcome) }
          complete
      else pure ()

def guestSettles (m : Nat) (settlement : Settlement GuestValue) : FlowM Unit := do
  match ← attempt (settleOutcome m settlement) with
  | .ok _ => pure ()
  | .error problem => do
    let flowState ← getFlowState
    if flowState = .failed then throw problem else panic problem

def Settlement.logEntry (settlement : Settlement HostValue) (hVow : VowId) : LogEntry :=
  match settlement with
  | .fulfilled hostFulfillment => .doFulfill hVow hostFulfillment
  | .rejected hostReason => .doReject hVow hostReason

/-- A handler of a host vow, when the vow is settled and the replay done. -/
def settleVow (hVow : VowId) (promiseKey : GuestCap) (settlement : Settlement HostValue) :
    FlowM Unit := do
  let flow ← get
  if (flow.membrane.bind fun membrane => membrane.guestPromiseMap.lookup promiseKey) =
      some .settled then pure ()
  else do
    pushEntry isStorable (settlement.logEntry hVow)
    let _ ← attempt (interpretTop isStorable (settlement.logEntry hVow))
    pure ()

end Restart

section System

/-- What can happen to an activation. -/
inductive FlowEvent where
  | restart (eager : Bool)
  | guestCalls (m : Nat) (guestTarget : GuestCap) (optVerb : Option String)
      (guestArgs : GuestValue) (reply : HostReply)
  | guestReturns
  | guestSends (m : Nat)
  | guestSettles (m : Nat) (settlement : Settlement GuestValue)
  | wakeMembrane (m : Nat)
  | vowSettled (m : Nat) (watcher : Nat) (settlement : Settlement HostValue)
  | newIncarnation

variable (isStorable : HostCap → Bool)

/-- Loss of everything ephemeral, in a vat upgrade. -/
def Flow.reincarnate (flow : Flow) : Flow :=
  { flow with
    generation := flow.generation + 1
    eph := reinitLog (flow.generation + 1) flow.mapStore
    g2h := ∅
    h2g := ∅
    membrane := none }

/-- The handler at the given position of the watchers is run and forgotten. -/
def takeWatcher (i : Nat) (flow : Flow) : Flow :=
  { flow with membrane := flow.membrane.map fun membrane =>
      { membrane with watchers := membrane.watchers.eraseIdx i } }

/-- One event. `none` where it cannot happen: while the guest function runs, only
its calls and its return do. -/
def Flow.step (flow : Flow) : FlowEvent → Option Flow
  | .restart eager =>
    if flow.starting then none
    else
      match restartGuest isStorable eager flow with
      | .ok _ next => some { next with starting := true }
      | .error _ next => some next
  | .guestCalls m guestTarget optVerb guestArgs reply =>
    -- a membrane in place has all the wrappers that it made in its bijection
    if flow.stopped m = false ∧ flow.g2h.has guestTarget = false then none
    else some (finalState (guestMethod isStorable m guestTarget optVerb guestArgs reply) flow)
  | .guestReturns =>
    if flow.starting then
      some { finalState registerGuestResult flow with starting := false }
    else none
  | .guestSends _ =>
    -- the handler of eventual sends panics in any membrane, stopped or not
    if flow.starting then none
    else some (finalState (panic (α := Unit) "guest eventual send not yet supported") flow)
  | .guestSettles m settlement =>
    if flow.starting then none else some (finalState (guestSettles m settlement) flow)
  | .wakeMembrane m =>
    if flow.starting then none else some (finalState (membraneWake isStorable m) flow)
  | .vowSettled m i settlement =>
    if flow.starting then none
    else
      match flow.membrane with
      | none => none
      | some membrane =>
        match membrane.watchers[i]? with
        | none => none
        | some (hVow, promiseKey) =>
          if membrane.id = m ∧ flow.eph.replayDone = true then
            some (finalState (settleVow isStorable hVow promiseKey settlement) (takeWatcher i flow))
          else none
  | .newIncarnation => if flow.starting then none else some flow.reincarnate

/-- An activation just made, before its first `restart`. -/
structure Flow.Initial (flow : Flow) : Prop where
  log : flow.mapStore = []
  eph : flow.eph = reinitLog flow.generation []
  h2g : flow.h2g = ∅
  g2h : flow.g2h = ∅
  isDone : flow.isDone = false
  failure : flow.failure = none
  membrane : flow.membrane = none
  starting : flow.starting = false
  deliveries : flow.deliveries = []

def flowSystem : TransitionSystem Flow FlowEvent where
  init := Flow.Initial
  step := Flow.step isStorable

end System

end AgoricSdk.AsyncFlow
