import AgoricSdk.SwingSet.VatTranslator

/-!
Queueing messages, notifications and resolutions; the vat warehouse, which
knows the online workers; and the termination of a vat.
-/

namespace AgoricSdk.SwingSet

section Queue

/-- `panic`: the kernel runs nothing more. -/
def panic (fault : Fault) : KM PUnit :=
  modify fun s => { s with kernelPanic := some fault }

def notify (vatID : VatID) (kpid : KSlot) : KM PUnit := do
  incrementRefCount kpid .reachable
  addToAcceptanceQueue (.notify vatID kpid)

def doSubscribe (vatID : VatID) (kpid : KSlot) : KM PUnit := do
  let p ← getKernelPromise kpid
  match p.state with
  | .unresolved .. => addSubscriberToPromise kpid vatID
  | _ => notify vatID kpid

def doResolveOne (decider : Option VatID) (kpid : KSlot) (rejected : Bool)
    (data : CapData KSlot) : KM PUnit := do
  let (policy, subscribers) ← getResolveablePromise kpid decider
  subscribers.forM fun subscriber => notify subscriber kpid
  resolveKernelPromise kpid rejected data
  if rejected = true ∧ policy = .panic then panic .kernelPanic else pure ⟨⟩

/-- The decider is `none` for the kernel itself. -/
def doResolve (decider : Option VatID) (resolutions : List (KSlot × Bool × CapData KSlot)) :
    KM PUnit :=
  resolutions.forM fun r => doResolveOne decider r.1 r.2.1 r.2.2

def resolveToError (kpid : KSlot) (errorData : CapData KSlot) (expectedDecider : Option VatID) :
    KM PUnit :=
  doResolve expectedDecider [(kpid, true, errorData)]

/-- Give the message its serial number and remember to what it was sent. -/
def stampMessage (target : KSlot) (msg : Message) : KM Message := do
  let serial := (← getStore).sendCount
  modifyStore fun st => { st with sendCount := serial + 1 }
  return { msg with origin := ⟨msg.origin.sender, target, serial⟩ }

def incrementResult (result : Option KSlot) : KM PUnit :=
  match result with
  | some kpid => incrementRefCount kpid .reachable
  | none => pure ⟨⟩

def doSend (target : KSlot) (msg : Message) : KM PUnit := do
  incrementRefCount target .reachable
  incrementResult msg.result
  incrementSlots msg.methargs.slots
  let stamped ← stampMessage target msg
  addToAcceptanceQueue (.send target stamped)

/-- A message from the kernel itself. The capdata stands for the marshalled
method and arguments, and there is always a result promise. -/
def queueToKref (kref : KSlot) (methargs : CapData KSlot) (policy : ResolutionPolicy) :
    KM KSlot := do
  let resultKPID ← addKernelPromise policy
  doSend kref ⟨methargs, some resultKPID, unsentOrigin .kernel kref⟩
  return resultKPID

/-- The arguments `[vatID, shouldReject, info]`, with the slots of the info. -/
def notifyTermination (vatAdminRootKref : KSlot) (info : CapData KSlot) : KM PUnit := do
  let methargs ← reserialize info.body info.slots
  let _ ← queueToKref vatAdminRootKref methargs .logFailure

end Queue

section Warehouse

/-- The options of a vat that is online or alive. -/
def lookup (vatID : VatID) : KM (Option VatOptions) := do
  match (← get).online.lookup vatID with
  | some options => return some options
  | none =>
    if ← vatIsAlive vatID then
      provideVatKeeper vatID
      return some (← getOptions vatID)
    else return none

def evict (vatID : VatID) : KM PUnit := do
  let known ← lookup vatID
  insist (known.isSome = true) .assertionFailed
  if (← get).online.has vatID then
    modify fun s => { s with online := s.online.erase vatID }
    evictVatKeeper vatID
  else pure ⟨⟩

def stopWorker (vatID : VatID) : KM PUnit := do
  if (← get).online.has vatID then
    let _ ← StateProgram.attempt (evict vatID)
  else pure ⟨⟩

/-- Bring a worker online. Creating it may fail; for a vat that ran before,
that is a panic. -/
def ensureVatOnline (vatID : VatID) (recreate workerStarts : Bool) : KM PUnit := do
  if (← get).online.has vatID then pure ⟨⟩
  else
    let alive ← vatIsAlive vatID
    insist (alive = true) (.vatNotAlive vatID)
    provideVatKeeper vatID
    let options ← getOptions vatID
    insistCurrentSpan vatID
    if workerStarts then
      modify fun s => { s with online := s.online.insert vatID options }
    else
      if recreate then panic (.workerFailed vatID) else pure ⟨⟩
      throw (.workerFailed vatID)

/-- `kernelDeliveryToVatDelivery` of the warehouse: the translators need the
vat keeper. -/
def translateDelivery (vatID : VatID) (kd : KernelDelivery) : KM VatDelivery := do
  provideVatKeeper vatID
  kernelDeliveryToVatDelivery vatID kd

/-- `deliverAndLogToVat` up to the point where the worker runs. -/
def beginDelivery (vatID : VatID) : KM PUnit := do
  modify fun s => { s with vatRequestedTermination := none, illegalSyscall := false }
  let known ← lookup vatID
  insist (known.isSome = true) .assertionFailed
  ensureVatOnline vatID true true
  provideVatKeeper vatID
  insistCurrentSpan vatID

def beginNewWorkerIncarnation (vatID : VatID) : KM PUnit := do
  evict vatID
  provideVatKeeper vatID
  insistCurrentSpan vatID

end Warehouse

section Termination

/-- What `terminateVat` does to a vat that is alive; whether the vat is critical. -/
def recordTermination (vatID : VatID) : KM Bool := do
  if ← vatIsAlive vatID then
    provideVatKeeper vatID
    let options ← getOptions vatID
    deleteVatID vatID
    markVatAsTerminated vatID
    stopUsingTranscript vatID
    forPromisesByDecider vatID fun kpid _ => resolveToError kpid makeError (some vatID)
    return options.critical
  else return false

/-- The synchronous part of `terminateVat`. The worker is stopped later, when
the pending `stopWorker` runs. -/
def terminateVat (vatID : VatID) (info : CapData KSlot) : KM PUnit := do
  let critical ← recordTermination vatID
  if critical then panic .kernelPanic
  else
    match (← getStore).vatAdminRootKref with
    | some vatAdminRootKref => notifyTermination vatAdminRootKref info
    | none => pure ⟨⟩
  modify fun s => { s with stopping := s.stopping ++ [vatID] }

/-- Run the pending `stopWorker` calls. -/
def stopPendingWorkers : KM PUnit := do
  let pending := (← get).stopping
  modify fun s => { s with stopping := [] }
  pending.forM stopWorker

end Termination

end AgoricSdk.SwingSet
