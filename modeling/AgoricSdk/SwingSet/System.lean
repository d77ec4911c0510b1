import AgoricSdk.Lib.Transition
import AgoricSdk.SwingSet.Initialize

/-!
The kernel as a transition system. One action is one uninterrupted stretch of
kernel code: taking the next message, starting to process it, one syscall of
the vat that runs, the end of its delivery, and the stages of the end of the
crank. Vats, devices, the run policy and the host choose the actions. Nothing
happens any more after a panic or an exception that no handler catches.
-/

namespace AgoricSdk.SwingSet

/-- Where in a crank the kernel is. -/
inductive Phase where
  | idle
  | routing (message : RunQueueEvent)
  | dequeued (message : RunQueueEvent)
  | delivering (message : RunQueueEvent) (vatID : VatID) (useTranscript : Bool)
      (rest : Continuation)
  | delivered (message : RunQueueEvent) (results : CrankResults)
  | snapshotting (message : RunQueueEvent) (vatID : VatID) (results : CrankResults)
  | settling (message : RunQueueEvent) (results : CrankResults)
  | collecting (message : RunQueueEvent)
  | stopped

structure Kernel where
  state : KernelState
  phase : Phase

inductive Action where
  /-- Start a crank under what the run policy allows. -/
  | startCrank (allowCleanup : AllowCleanup)
  /-- Process the message that was taken. -/
  | process (env : Environment)
  /-- A syscall of the vat that is running. -/
  | syscall (vso : VatSyscall) (script : DeviceScript)
  /-- Pending `stopWorker` calls run. -/
  | endOfTurn
  /-- The worker is done with its delivery. -/
  | deliveryDone (report : DeliveryReport)
  /-- Roll back, or save a snapshot if it is time to. -/
  | rollbackOrSnapshot (saveSnapshot : Bool)
  /-- Meters, dirt, termination and messages to vat-admin. -/
  | settle
  /-- Process reference counts and end the crank. -/
  | collect
  /-- The worker cache evicts an idle vat. -/
  | evict (vatID : VatID)
  /-- The process ends and a new one starts. -/
  | restart (maxPreload : Nat)
  /-- A device sends a message between cranks. -/
  | deviceInput (deviceID : DeviceID) (target : JSString) (methargs : CapData JSString)
deriving DecidableEq

section Steps

def phaseOfProgress (message : RunQueueEvent) : Progress → KM Phase
  | .finished results => return .delivered message results
  | .delivering vatID rest => do
    let options ← required ((← get).online.lookup vatID) .assertionFailed
    return .delivering message vatID options.useTranscript rest

def startCrank (allowCleanup : AllowCleanup) : KM Phase := do
  establishCrankSavepoint .start
  match ← getNextMessageAndProcessor allowCleanup with
  | .nothing =>
    endCrank
    return .idle
  | .acceptance message => return .routing message
  | .delivery message => return .dequeued message

def processRouting (message : RunQueueEvent) : KM Phase := do
  processAcceptanceMessage message
  return .collecting message

def processDelivery (message : RunQueueEvent) (env : Environment) : KM Phase := do
  establishCrankSavepoint .deliver
  let progress ← deliverRunQueueEvent message env
  phaseOfProgress message progress

def deliveryDone (message : RunQueueEvent) (vatID : VatID) (useTranscript : Bool)
    (rest : Continuation) (report : DeliveryReport) : KM Phase := do
  stopPendingWorkers
  endDelivery vatID rest.isBoyd useTranscript report
  let progress ← continueDelivery vatID rest report
  phaseOfProgress message progress

def rollbackOrSnapshot (message : RunQueueEvent) (results : CrankResults)
    (saveSnapshot : Bool) : KM Phase := do
  if results.abort then
    rollbackCrank results.savepoint
    return .settling message results
  else
    match results.didDelivery with
    | none => return .settling message results
    | some vatID =>
      if ← maybeSaveSnapshot vatID saveSnapshot then return .snapshotting message vatID results
      else return .settling message results

/-- The extra delivery before a snapshot; its failures are not looked at. -/
def snapshotDone (message : RunQueueEvent) (vatID : VatID) (results : CrankResults) :
    KM Phase := do
  stopPendingWorkers
  endDelivery vatID true true ⟨true, none⟩
  return .settling message results

def settlePhase (message : RunQueueEvent) (results : CrankResults) : KM Phase := do
  settleCrank results
  return .collecting message

def collectPhase : KM Phase := do
  finishCrank
  return .idle

/-- A device that throws while it sends is not the kernel's concern. -/
def deviceInput (deviceID : DeviceID) (target : JSString) (methargs : CapData JSString) :
    KM Phase := do
  let _ ← StateProgram.attempt (runDeviceCall deviceID (.sendOnly target methargs))
  return .idle

def deliveringVat : Phase → Option VatID
  | .delivering _ vatID _ _ => some vatID
  | .snapshotting _ vatID _ => some vatID
  | _ => none

/-- The code an action runs in a phase, if the action is possible there. -/
def actionProgram : Phase → Action → Option (KM Phase)
  | .idle, .startCrank allowCleanup => some (startCrank allowCleanup)
  | .routing message, .process _ => some (processRouting message)
  | .dequeued message, .process env => some (processDelivery message env)
  | .delivering message vatID ut rest, .syscall vso script => some do
    vatSyscallHandler vatID vso script
    return .delivering message vatID ut rest
  | .snapshotting message vatID results, .syscall vso script => some do
    vatSyscallHandler vatID vso script
    return .snapshotting message vatID results
  | .delivering message vatID ut rest, .endOfTurn => some do
    stopPendingWorkers
    return .delivering message vatID ut rest
  | .snapshotting message vatID results, .endOfTurn => some do
    stopPendingWorkers
    return .snapshotting message vatID results
  | .delivering message vatID ut rest, .deliveryDone report =>
    some (deliveryDone message vatID ut rest report)
  | .snapshotting message vatID results, .deliveryDone _ =>
    some (snapshotDone message vatID results)
  | .delivered message results, .rollbackOrSnapshot saveSnapshot =>
    some (rollbackOrSnapshot message results saveSnapshot)
  | .settling message results, .settle => some (settlePhase message results)
  | .collecting _, .collect => some collectPhase
  | .idle, .restart maxPreload => some do
    startKernel maxPreload
    return .idle
  | .idle, .deviceInput deviceID target methargs => some (deviceInput deviceID target methargs)
  | .stopped, _ => none
  | phase, .evict vatID =>
    if deliveringVat phase = some vatID then none
    else some do
      stopWorker vatID
      return phase
  | _, _ => none

/-- Run an action's code. A panic stops the kernel, and so does a fault. -/
def Kernel.run (k : Kernel) (program : KM Phase) : Kernel :=
  match program k.state with
  | .ok phase s => ⟨s, if s.kernelPanic.isSome then .stopped else phase⟩
  | .error fault s => ⟨{ s with kernelPanic := some fault }, .stopped⟩

def Kernel.step (k : Kernel) (a : Action) : Option Kernel :=
  (actionProgram k.phase a).map k.run

end Steps

/-- A kernel just started on an initialized database. -/
def Kernel.Initial (k : Kernel) : Prop :=
  ∃ cfg maxPreload s,
    (initializeKernel cfg >>= fun _ => startKernel maxPreload) (startingState cfg) = .ok ⟨⟩ s ∧
    k = ⟨s, .idle⟩

/-- The kernel with everything around it free to choose. -/
def swingset : TransitionSystem Kernel Action where
  init := Kernel.Initial
  step := Kernel.step

section Runs

/-- The kernel started on the database made from the configuration. -/
def Kernel.boot (cfg : KernelConfig) (maxPreload : Nat) : Option Kernel :=
  match (initializeKernel cfg >>= fun _ => startKernel maxPreload) (startingState cfg) with
  | .ok _ s => some ⟨s, .idle⟩
  | .error _ _ => none

variable {ok : Kernel → Action → Prop} [∀ k a, Decidable (ok k a)]

/-- Boot, then take actions that meet the condition. -/
def Kernel.afterBoot (ok : Kernel → Action → Prop) [∀ k a, Decidable (ok k a)]
    (cfg : KernelConfig) (actions : List Action) : Option Kernel :=
  (Kernel.boot cfg 0).bind fun k => swingset.runWhile ok k actions

theorem Kernel.initial_of_boot {cfg : KernelConfig} {maxPreload : Nat} {k : Kernel}
    (h : Kernel.boot cfg maxPreload = some k) : k.Initial := by
  unfold Kernel.boot at h
  split at h
  case h_1 s hs => exact ⟨cfg, maxPreload, s, hs, (Option.some.inj h).symm⟩
  case h_2 => cases h

theorem reachable_of_afterBoot {cfg : KernelConfig} {actions : List Action} {k : Kernel}
    (h : Kernel.afterBoot ok cfg actions = some k) : swingset.Reachable ok k := by
  obtain ⟨k₀, h₀, hrun⟩ := Option.bind_eq_some_iff.mp h
  exact .of_runWhile (.init (Kernel.initial_of_boot h₀)) hrun

/-- A worker that starts, and no snapshots or transcripts to delete. -/
def Environment.plain : Environment := ⟨⟨0, 0, true⟩, true⟩

/-- A crank that moves a message from the acceptance queue. -/
def acceptanceCrank : List Action := [.startCrank .no, .process .plain, .collect]

/-- A crank up to its end of delivery, with what happens meanwhile. -/
def deliveryUpToSettle (during : List Action) (report : DeliveryReport) : List Action :=
  [.startCrank .no, .process .plain] ++ during ++ [.deliveryDone report, .rollbackOrSnapshot false]

def deliveryCrank (during : List Action) : List Action :=
  deliveryUpToSettle during ⟨true, none⟩ ++ [.settle, .collect]

def noScript : DeviceScript := ⟨[], none⟩

end Runs

section SmallKernel

def neverReap : ReapDirtThreshold := ⟨.absent, .absent, .absent, true⟩

def plainVatOptions : VatOptions := ⟨false, true, false, none, neverReap⟩

/-- The vat-admin vat `v1`, and a vat `v2` that bootstrap gives the device. -/
def twoVats : KernelConfig where
  vats := [⟨vatAdminName, ['b'], plainVatOptions⟩, ⟨['a'], ['b'], plainVatOptions⟩]
  devices := [vatAdminName]
  bundles := [['b']]
  bootstrap := some ['a']
  pinBootstrapRoot := false
  defaultReapDirtThreshold := neverReap

/-- Both vats are started, and the bootstrap message is next. -/
def twoVatsStarted : List Action :=
  acceptanceCrank ++ acceptanceCrank ++ acceptanceCrank ++ deliveryCrank [] ++ deliveryCrank []

end SmallKernel

end AgoricSdk.SwingSet
