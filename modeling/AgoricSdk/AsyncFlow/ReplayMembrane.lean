import AgoricSdk.Lib.Program
import AgoricSdk.Lib.Table

/-!
One activation of a guest async function, seen from its replay membrane: the
log, the bijection between host and guest capabilities, the conversions, and
the interpreters that replay the log. A function that panics or fails throws,
and the changes made before stay, as in the source.

The passable data between capabilities is opaque: a value is its skeleton with
the capabilities and errors at its leaves in the order in which the conversion
visits them.
-/

namespace AgoricSdk.AsyncFlow

open StateProgram

section Values

inductive HostCap where
  | remotable (id : Nat)
  | farFunction (id : Nat)
  | vow (id : Nat)
  | promise (id : Nat)
deriving DecidableEq

/-- A guest capability: made by the membrane for a host one, or by the guest. -/
inductive GuestCap where
  | wrapper (id : Nat)
  | own (id : Nat)
deriving DecidableEq

inductive Leaf (κ : Type) where
  | cap (c : κ)
  | error (name : String)
deriving DecidableEq

structure Passable (κ : Type) where
  skeleton : String
  leaves : List (Leaf κ)
deriving DecidableEq

abbrev HostValue := Passable HostCap

abbrev GuestValue := Passable GuestCap

abbrev VowId := Nat

/-- An exception of the membrane or of the flow around it. -/
abbrev Problem := String

/-- The host error that stands for a problem of the membrane. -/
def Problem.toHost (problem : Problem) : HostValue :=
  ⟨problem, [.error "Error"]⟩

end Values

section State

inductive LogEntry where
  | startGeneration (generation : Nat)
  | doFulfill (hostVow : VowId) (hostFulfillment : HostValue)
  | doReject (hostVow : VowId) (hostReason : HostValue)
  | doReturn (callIndex : Nat) (hostResult : HostValue)
  | doThrow (callIndex : Nat) (hostProblem : HostValue)
  | checkCall (hostTarget : HostCap) (optVerb : Option String) (hostArgs : HostValue)
      (callIndex : Nat)
deriving DecidableEq

def entryIsVisible : LogEntry → Bool
  | .startGeneration _ => false
  | _ => true

def HostValue.caps (value : HostValue) : List HostCap :=
  value.leaves.filterMap fun leaf =>
    match leaf with
    | .cap c => some c
    | .error _ => none

/-- The capabilities that an entry makes the log store hold. -/
def LogEntry.caps : LogEntry → List HostCap
  | .startGeneration _ => []
  | .doFulfill hostVow value | .doReject hostVow value => .vow hostVow :: HostValue.caps value
  | .doReturn _ value | .doThrow _ value => HostValue.caps value
  | .checkCall hostTarget _ hostArgs _ => hostTarget :: HostValue.caps hostArgs

/-- The ephemera of the log store. -/
structure LogEphemera where
  index : Nat
  unfilteredIndex : Nat
  initialPush : List LogEntry
  replayDone : Bool

inductive Outcome where
  | return_ (result : GuestValue)
  | throw_ (problem : GuestValue)
deriving DecidableEq

/-- What a guest sees of a call: its outcome, or an exception of the membrane. -/
inductive Answer where
  | outcome (o : Outcome)
  | failure (problem : Problem)
deriving DecidableEq

inductive PromiseStatus where
  | unresolved
  | settled
deriving DecidableEq

/-- The variables that one `makeReplayMembrane` closes over, and the handlers of host
vows that it left to run later. -/
structure Membrane where
  id : Nat
  guestPromiseMap : Table GuestCap PromiseStatus
  callStack : List Nat
  unnestFlag : Bool
  watchers : List (VowId × GuestCap)
  guestResultP : Option GuestCap

/-- What a guest was told about one of its calls, kept for the proofs: the visible
log, the bijection and whether the membrane was still in place at that moment. -/
structure Delivery where
  callIndex : Nat
  answer : Answer
  log : List LogEntry
  hostToGuest : Table HostCap GuestCap
  live : Bool

/-- What a vow or the result of the guest was settled to. -/
inductive Settlement (α : Type) where
  | fulfilled (value : α)
  | rejected (reason : α)
deriving DecidableEq

/-- An activation: its durable state, then its ephemeral one. The membrane is the
one in `membraneMap`; any other membrane of the flow has been stopped. -/
structure Flow where
  activationArgs : HostValue
  mapStore : List LogEntry
  outcomeVow : VowId
  outcome : Option (Settlement HostValue)
  isDone : Bool
  failure : Option Problem
  eagerWaker : Bool
  forOutcomeVow : Bool
  generation : Nat
  eph : LogEphemera
  g2h : Table GuestCap HostCap
  h2g : Table HostCap GuestCap
  membrane : Option Membrane
  nextGuest : Nat
  nextMembrane : Nat
  starting : Bool
  deliveries : List Delivery

abbrev FlowM := EStateM Problem Flow

end State

section LogStore

/-- The entries that a log pushes first in an incarnation. -/
def initialPush (generation : Nat) : List LogEntry := [.startGeneration generation]

def reinitLog (generation : Nat) (mapStore : List LogEntry) : LogEphemera where
  index := 0
  unfilteredIndex := 0
  initialPush := initialPush generation
  replayDone := mapStore.isEmpty

def Flow.isReplaying (flow : Flow) : Bool :=
  decide (flow.eph.unfilteredIndex < flow.mapStore.length)

def logReset : FlowM Unit :=
  modify fun flow => { flow with eph := reinitLog flow.generation flow.mapStore }

def logDispose : FlowM Unit :=
  modify fun flow => { flow with mapStore := [], eph := reinitLog flow.generation [] }

def peekEntry : FlowM LogEntry := do
  let flow ← get
  match flow.mapStore[flow.eph.unfilteredIndex]? with
  | some entry => pure entry
  | none => throw "No longer replaying"

/-- The ephemera after the given entry was taken from the log. -/
def LogEphemera.advance (eph : LogEphemera) (entry : LogEntry) (length : Nat) : LogEphemera :=
  { eph with
    unfilteredIndex := eph.unfilteredIndex + 1
    index := if entryIsVisible entry then eph.index + 1 else eph.index
    replayDone := eph.replayDone || decide (length ≤ eph.unfilteredIndex + 1) }

def nextUnfilteredEntry : FlowM LogEntry := do
  let result ← peekEntry
  modify fun flow => { flow with eph := flow.eph.advance result flow.mapStore.length }
  pure result

/-- `nextEntry`, with the number of entries that may still be skipped. -/
def nextEntryLoop : Nat → LogEntry → FlowM LogEntry
  | 0, result => pure result
  | fuel + 1, result =>
    if entryIsVisible result then pure result
    else do
      let flow ← get
      if flow.isReplaying then do
        let next ← nextUnfilteredEntry
        nextEntryLoop fuel next
      else throw "Unexpected entry at log tail"

def nextEntry : FlowM LogEntry := do
  let result ← nextUnfilteredEntry
  let flow ← get
  nextEntryLoop (flow.mapStore.length + 1) result

variable (isStorable : HostCap → Bool)

def pushOne (entry : LogEntry) : FlowM Unit := do
  if entry.caps.all isStorable then
    modify fun flow =>
      { flow with
        mapStore := flow.mapStore ++ [entry]
        eph := { flow.eph with
          unfilteredIndex := flow.eph.unfilteredIndex + 1
          index := if entryIsVisible entry then flow.eph.index + 1 else flow.eph.index } }
  else throw "value is not durable"

def pushEntry (latestEntry : LogEntry) : FlowM Unit := do
  let flow ← get
  if flow.isReplaying then throw "still replaying"
  else do
    let initialEntries := flow.eph.initialPush
    modify fun flow => { flow with eph := { flow.eph with initialPush := [] } }
    initialEntries.forM (pushOne isStorable)
    pushOne isStorable latestEntry

end LogStore

section Panic

inductive FlowState where
  | running
  | sleeping
  | replaying
  | failed
  | done
deriving DecidableEq

def getFlowState : FlowM FlowState := do
  let flow ← get
  if flow.isDone then
    if flow.membrane.isSome then throw "Done flow must drop membrane"
    else if flow.failure.isSome then throw "Done flow must not be in failures"
    else if flow.eagerWaker then throw "Done flow must not be in eagerWakers"
    else if flow.forOutcomeVow then throw "Done flow must drop flow lookup from vow"
    else if flow.eph.index = 0 ∧ flow.mapStore = [] then pure .done
    else throw "Done flow must empty log"
  else if flow.failure.isSome then pure .failed
  else if flow.membrane.isNone then
    if flow.eph.index = 0 then pure .sleeping else throw "Sleeping flow must play from log start"
  else if flow.isReplaying then pure .replaying
  else pure .running

/-- Stop the membrane and forget it. -/
def dropMembrane : FlowM Unit :=
  modify fun flow => { flow with membrane := none }

def bijectionReset : FlowM Unit :=
  modify fun flow => { flow with g2h := ∅, h2g := ∅ }

/-- The panic of the flow: it only throws. -/
def panic {α : Type} (fatalProblem : Problem) : FlowM α := do
  modify fun flow => { flow with failure := some (flow.failure.getD fatalProblem) }
  dropMembrane
  logReset
  bijectionReset
  let flowState ← getFlowState
  if flowState = .failed then
    throw "In a Failed state: see getFailures() or getOptFatalProblem() for more information"
  else throw "Panicked flow must be Failed"

def orPanic {α : Type} (m : FlowM α) : FlowM α := do
  match ← attempt m with
  | .ok a => pure a
  | .error problem => panic problem

end Panic

section Convert

variable (isStorable : HostCap → Bool)

def modifyMembrane (f : Membrane → Membrane) : FlowM Unit :=
  modify fun flow => { flow with membrane := flow.membrane.map f }

def unwrapInit (g : GuestCap) (h : HostCap) : FlowM GuestCap := do
  let flow ← get
  if flow.h2g.has h then throw "hostToGuest key already bound"
  else if flow.g2h.has g then throw "guestToHost key already bound"
  else do
    modify fun flow => { flow with g2h := flow.g2h.insert g h, h2g := flow.h2g.insert h g }
    pure g

def freshGuest : FlowM GuestCap := do
  let flow ← get
  modify fun flow => { flow with nextGuest := flow.nextGuest + 1 }
  pure (.wrapper flow.nextGuest)

def watchWake (vowish : VowId) : FlowM Unit :=
  if isStorable (.vow vowish) then pure ()
  else throw "vowish must be storable in this zone (usually, must be durable)"

def makeGuestForHostVow : HostCap → FlowM GuestCap
  | .vow hVow => do
    let promise ← freshGuest
    modifyMembrane fun membrane =>
      { membrane with guestPromiseMap := membrane.guestPromiseMap.insert promise .unresolved }
    watchWake isStorable hVow
    modifyMembrane fun membrane =>
      { membrane with watchers := membrane.watchers ++ [(hVow, promise)] }
    pure promise
  | _ => throw "vow expected"

def makeGuestForHostRemotable : HostCap → FlowM GuestCap
  | .farFunction _ => throw "host far functions not yet passable"
  | _ => freshGuest

/-- `makeGuestForHostRemotable` or `makeGuestForHostVow`, by the pass style. -/
def makeGuestForHost (h : HostCap) : FlowM GuestCap :=
  match h with
  | .remotable _ | .farFunction _ => makeGuestForHostRemotable h
  | .vow _ | .promise _ => makeGuestForHostVow isStorable h

def hostCapToGuest (h : HostCap) : FlowM GuestCap := do
  let flow ← get
  match flow.h2g.lookup h with
  | some g => pure g
  | none => do
    let g ← makeGuestForHost isStorable h
    unwrapInit g h

def hostLeafToGuest : Leaf HostCap → FlowM (Leaf GuestCap)
  | .cap h => Leaf.cap <$> hostCapToGuest isStorable h
  | .error name => pure (.error name)

def hostToGuest (specimen : HostValue) : FlowM GuestValue := do
  let leaves ← specimen.leaves.mapM (hostLeafToGuest isStorable)
  pure ⟨specimen.skeleton, leaves⟩

def guestCapToHost (g : GuestCap) : FlowM HostCap := do
  let flow ← get
  match flow.g2h.lookup g with
  | some h => pure h
  | none => throw "cannot yet send guest remotables or promises"

def guestLeafToHost : Leaf GuestCap → FlowM (Leaf HostCap)
  | .cap g => Leaf.cap <$> guestCapToHost g
  | .error name => pure (.error name)

def guestToHost (specimen : GuestValue) : FlowM HostValue := do
  let leaves ← specimen.leaves.mapM guestLeafToHost
  pure ⟨specimen.skeleton, leaves⟩

/-- Errors need only agree on their names, capabilities through the bijection. -/
def equateLeaf (g2h : Table GuestCap HostCap) : Leaf GuestCap → Leaf HostCap → Bool
  | .cap g, .cap h => decide (g2h.lookup g = some h)
  | .error gName, .error hName => decide (gName = hName)
  | _, _ => false

def equateLeaves (g2h : Table GuestCap HostCap) : List (Leaf GuestCap) → List (Leaf HostCap) → Bool
  | [], [] => true
  | g :: gs, h :: hs => equateLeaf g2h g h && equateLeaves g2h gs hs
  | _, _ => false

def equateValue (g2h : Table GuestCap HostCap) (g : GuestValue) (h : HostValue) : Bool :=
  decide (g.skeleton = h.skeleton) && equateLeaves g2h g.leaves h.leaves

/-- `equate` of a guest entry `checkCall` with an entry of the log. -/
def equatesCall (g2h : Table GuestCap HostCap) (guestTarget : GuestCap) (optVerb : Option String)
    (guestArgs : GuestValue) (callIndex : Nat) : LogEntry → Bool
  | .checkCall hostTarget verb hostArgs index =>
    decide (g2h.lookup guestTarget = some hostTarget) && decide (optVerb = verb) &&
      equateValue g2h guestArgs hostArgs && decide (callIndex = index)
  | _ => false

def equateCall (guestTarget : GuestCap) (optVerb : Option String) (guestArgs : GuestValue)
    (callIndex : Nat) (entry : LogEntry) : FlowM Unit := do
  let flow ← get
  if equatesCall flow.g2h guestTarget optVerb guestArgs callIndex entry then pure ()
  else throw "unequal"

end Convert

section Interpreter

variable (isStorable : HostCap → Bool)

/-- Settle the guest promise of a host vow, for `doFulfill` and `doReject`. -/
def settleGuestPromise (hostVow : VowId) (settlement : HostValue) : FlowM Unit := do
  let guestPromise ← hostCapToGuest isStorable (.vow hostVow)
  let flow ← get
  if (flow.membrane.bind fun membrane => membrane.guestPromiseMap.lookup guestPromise) =
      some .unresolved then do
    let _ ← hostToGuest isStorable settlement
    modifyMembrane fun membrane =>
      { membrane with guestPromiseMap := membrane.guestPromiseMap.insert guestPromise .settled }
  else throw "should only be called on a registered unresolved promise"

def doFulfill (hostVow : VowId) (hostFulfillment : HostValue) : FlowM Unit :=
  settleGuestPromise isStorable hostVow hostFulfillment

def doReject (hostVow : VowId) (hostReason : HostValue) : FlowM Unit :=
  settleGuestPromise isStorable hostVow hostReason

def unnestInterpreter (callIndex : Nat) : FlowM Unit := do
  let flow ← get
  match flow.membrane with
  | none => throw "This membrane stopped. Restart with new membrane"
  | some membrane =>
    match membrane.callStack with
    | [] => throw "Unmatched unnest"
    | i :: callStack => do
      modifyMembrane fun membrane => { membrane with callStack := callStack }
      if i = callIndex then
        -- with an empty stack the source schedules a `wake` for a later turn
        modifyMembrane fun membrane => { membrane with unnestFlag := true }
      else throw "Unexpected unnest"

def doReturn (callIndex : Nat) (hostResult : HostValue) : FlowM Outcome := do
  unnestInterpreter callIndex
  let guestResult ← hostToGuest isStorable hostResult
  pure (.return_ guestResult)

def doThrow (callIndex : Nat) (hostProblem : HostValue) : FlowM Outcome := do
  unnestInterpreter callIndex
  let guestProblem ← hostToGuest isStorable hostProblem
  pure (.throw_ guestProblem)

def topDispatch : LogEntry → FlowM Unit
  | .startGeneration _ => pure ()
  | .doFulfill hostVow hostFulfillment => doFulfill isStorable hostVow hostFulfillment
  | .doReject hostVow hostReason => doReject isStorable hostVow hostReason
  | _ => throw "unexpected dispatch op"

def nestDispatch : LogEntry → FlowM Outcome
  | .doReturn callIndex hostResult => doReturn isStorable callIndex hostResult
  | .doThrow callIndex hostProblem => doThrow isStorable callIndex hostProblem
  | _ => throw "unexpected dispatch op"

/-- The operations that the top level interpreter drives. -/
def inTopDispatch : LogEntry → Bool
  | .startGeneration _ | .doFulfill _ _ | .doReject _ _ => true
  | _ => false

def interpretTop (entry : LogEntry) : FlowM Unit :=
  orPanic (topDispatch isStorable entry)

def interpretNest (entry : LogEntry) : FlowM Outcome :=
  orPanic (nestDispatch isStorable entry)

def logDo (entry : LogEntry) : FlowM Outcome := do
  pushEntry isStorable entry
  interpretNest isStorable entry

/-- The loop of the nested interpreter, over at most the given number of entries. -/
def nestLoop : Nat → FlowM (Option Outcome)
  | 0 => do
    modifyMembrane fun membrane => { membrane with unnestFlag := false }
    pure none
  | fuel + 1 => do
    let flow ← get
    if flow.isReplaying ∧ flow.membrane.isSome then do
      let entry ← nextUnfilteredEntry
      let outcome ← interpretNest isStorable entry
      let flow ← get
      if (flow.membrane.map (·.unnestFlag)) = some true then do
        modifyMembrane fun membrane => { membrane with unnestFlag := false }
        pure (some outcome)
      else nestLoop fuel
    else do
      modifyMembrane fun membrane => { membrane with unnestFlag := false }
      pure none

def nestInterpreter (callIndex : Nat) : FlowM (Option Outcome) := do
  modifyMembrane fun membrane => { membrane with callStack := callIndex :: membrane.callStack }
  let flow ← get
  nestLoop isStorable flow.mapStore.length

/-- The loop of `wake` in the given membrane, over at most the given number of entries. -/
def wakeLoop (m : Nat) : Nat → FlowM Unit
  | 0 => pure ()
  | fuel + 1 => do
    let flow ← get
    match flow.membrane with
    | none => pure ()
    | some membrane =>
      if flow.isReplaying ∧ membrane.id = m then
        if membrane.callStack = [] then do
          let entry ← peekEntry
          if inTopDispatch entry then do
            let _ ← nextUnfilteredEntry
            interpretTop isStorable entry
            wakeLoop m fuel
          else pure ()
        else throw "wake only with empty callStack"
      else pure ()

def membraneWake (m : Nat) : FlowM Unit := do
  let flow ← get
  wakeLoop isStorable m flow.mapStore.length

end Interpreter

section Calls

variable (isStorable : HostCap → Bool)

/-- What the host method did when it was called. -/
inductive HostReply where
  | returned (hostResult : HostValue)
  | threw (hostProblem : HostValue)
deriving DecidableEq

def performCall (callIndex : Nat) : HostReply → FlowM Outcome
  | .threw hostProblem => logDo isStorable (.doThrow callIndex hostProblem)
  | .returned hostResult => do
    match ← attempt (hostToGuest isStorable hostResult) with
    | .error problem => logDo isStorable (.doThrow callIndex (Problem.toHost problem))
    | .ok _ => logDo isStorable (.doReturn callIndex hostResult)

/-- The part of `guestCallsHost` under the handler that panics: the call is taken
from the log, or logged and made. -/
def replayOrPerform (guestTarget : GuestCap) (optVerb : Option String) (guestArgs : GuestValue)
    (callIndex : Nat) (reply : HostReply) : FlowM (Option Outcome) := do
  let flow ← get
  if flow.isReplaying then do
    let entry ← nextEntry
    equateCall guestTarget optVerb guestArgs callIndex entry
    nestInterpreter isStorable callIndex
  else do
    let hostTarget ← guestCapToHost guestTarget
    let hostArgs ← guestToHost guestArgs
    pushEntry isStorable (.checkCall hostTarget optVerb hostArgs callIndex)
    let _ ← nestInterpreter isStorable callIndex
    some <$> performCall isStorable callIndex reply

/-- Is the membrane stopped? -/
def Flow.stopped (flow : Flow) (m : Nat) : Bool :=
  decide (flow.membrane.map (·.id) ≠ some m)

def guestCallsHost (m : Nat) (guestTarget : GuestCap) (optVerb : Option String)
    (guestArgs : GuestValue) (reply : HostReply) : FlowM Outcome := do
  let flow ← get
  let callIndex := flow.eph.index
  if flow.stopped m ∨ flow.g2h.has guestTarget = false then throw "Called from a previous run"
  else do
    let outcome ← orPanic
      (replayOrPerform isStorable guestTarget optVerb guestArgs callIndex reply)
    -- the nested interpreter returns nothing where the log ends with the call
    match outcome with
    | some outcome => pure outcome
    | none => throw "TypeError: Cannot read properties of undefined"

/-- A call as the guest sees it; the delivery is noted for the proofs. -/
def guestMethod (m : Nat) (guestTarget : GuestCap) (optVerb : Option String)
    (guestArgs : GuestValue) (reply : HostReply) : FlowM Answer := do
  let flow ← get
  let callIndex := flow.eph.index
  let result ← attempt (guestCallsHost isStorable m guestTarget optVerb guestArgs reply)
  let answer := match result with
    | .ok outcome => Answer.outcome outcome
    | .error problem => Answer.failure problem
  modify fun flow =>
    { flow with deliveries := flow.deliveries ++
        [⟨callIndex, answer, flow.mapStore.filter entryIsVisible, flow.h2g,
          !flow.stopped m⟩] }
  pure answer

end Calls

end AgoricSdk.AsyncFlow
