import AgoricSdk.SwingSet.KernelSyscall

/-!
The kernel's cranks. A crank that delivers to a vat is interrupted while the
vat runs, so each handler is cut there: it ends either with crank results or
with a delivery in progress and what remains to be done after it.
-/

namespace AgoricSdk.SwingSet

section CrankResults

/-- The instructions a handler leaves for the end of its crank. -/
structure CrankResults where
  abort : Bool
  consumeMessage : Bool
  didDelivery : Option VatID
  computrons : Option Nat
  meterID : Option MeterID
  measureDirt : Option (VatID × MoreDirt)
  terminate : Option (VatID × CapData KSlot)
  vatAdminMethargs : Option (CapData KSlot)

def NO_DELIVERY_CRANK_RESULTS : CrankResults :=
  ⟨false, false, none, none, none, none, none, none⟩

/-- What a worker reports of one delivery: whether it went well, and the
computrons it used. -/
structure DeliveryReport where
  ok : Bool
  computrons : Option Nat
deriving DecidableEq

/-- Zero counts as missing, as zero is false. -/
def truthy (n : Option Nat) : Option Nat := n.filter (0 < ·)

def addComputrons (computrons₁ computrons₂ : Option Nat) : Option Nat :=
  match computrons₁, computrons₂ with
  | none, none => none
  | _, _ => some (computrons₁.getD 0 + computrons₂.getD 0)

def meterUnderrun (meterID : Option MeterID) (computrons : Option Nat) : KM Bool := do
  match meterID, computrons with
  | some meterID, some computrons => return !(← checkMeter meterID computrons)
  | _, _ => return false

def deliveryCrankResults (vatID : VatID) (report : DeliveryReport) (measureDirt : Bool)
    (meterID : Option MeterID) (gcKrefs : Nat) : KM CrankResults := do
  let s ← get
  let computrons := truthy report.computrons
  let underrun ← meterUnderrun meterID computrons
  let (abort, terminate) :=
    if s.illegalSyscall then (true, some (vatID, makeError))
    else if !report.ok then (true, some (vatID, makeError))
    else if underrun then (true, some (vatID, makeError))
    else
      match s.vatRequestedTermination with
      | some (reject, info) => (reject, some (vatID, info))
      | none => (false, none)
  let dirt : MoreDirt := ⟨some 1, truthy (some gcKrefs), computrons⟩
  return {
    abort
    consumeMessage := false
    didDelivery := some vatID
    computrons
    meterID := if computrons.isSome then meterID else none
    measureDirt :=
      if measureDirt && !(abort || terminate.isSome) then some (vatID, dirt) else none
    terminate
    vatAdminMethargs := none }

end CrankResults

section Routing

inductive Route where
  | splat
  | requeue
  | deliver (vatID : VatID) (target : KSlot)
deriving DecidableEq

def recordOutcome (msg : Message) (outcome : Outcome) : KM PUnit :=
  modifyStore fun st => { st with outcomes := st.outcomes ++ [(msg.origin, outcome)] }

/-- The message goes nowhere; its result promise is rejected. -/
def splat (msg : Message) (error : CapData KSlot) : KM Route := do
  match msg.result with
  | some result => resolveToError result error none
  | none => pure ⟨⟩
  recordOutcome msg .rejected
  return .splat

def routeToObject (msg : Message) (targetObject : KSlot) : KM Route := do
  match ← ownerOfKernelObject targetObject with
  | none => splat msg makeError
  | some vatID => return .deliver vatID targetObject

def routeToUnresolved (msg : Message) (target : KSlot) (decider : Option VatID) : KM Route := do
  match decider with
  | none => return .requeue
  | some vatID =>
    match ← lookup vatID with
    | none => splat msg makeError
    | some options =>
      if options.enablePipelining then return .deliver vatID target else return .requeue

def routeSendEvent (target : KSlot) (msg : Message) : KM Route := do
  match target.type with
  | .device => throw (.unableToSend target)
  | .object => routeToObject msg target
  | .promise =>
    let kp ← getKernelPromise target
    match kp.state with
    | .fulfilled data =>
      match ← extractSingleSlot data with
      | some targetSlot =>
        if targetSlot.type = .object then routeToObject msg targetSlot else splat msg makeError
      | none => splat msg makeError
    | .rejected data => splat msg data
    | .unresolved decider _ _ _ => routeToUnresolved msg target decider

def decrementResult (result : Option KSlot) : KM PUnit :=
  match result with
  | some kpid => decrementRefCount kpid .reachable
  | none => pure ⟨⟩

def decrementSendEventRefCount (target : KSlot) (msg : Message) : KM PUnit := do
  decrementRefCount target .reachable
  decrementResult msg.result
  decrementSlots msg.methargs.slots

/-- A message fulfilled promises lead elsewhere takes its reference along. -/
def retarget (target newTarget : KSlot) : KM PUnit := do
  if newTarget = target then pure ⟨⟩
  else
    decrementRefCount target .reachable
    incrementRefCount newTarget .reachable

/-- `processAcceptanceMessage`, up to the end-of-crank work. -/
def processAcceptanceMessage (message : RunQueueEvent) : KM PUnit := do
  match message with
  | .send target msg =>
    match ← routeSendEvent target msg with
    | .splat => decrementSendEventRefCount target msg
    | .requeue => addMessageToPromiseQueue target msg
    | .deliver _ newTarget =>
      retarget target newTarget
      addToRunQueue (.send newTarget msg)
  | _ => addToRunQueue message

end Routing

section Deliveries

/-- What remains of a handler after its delivery. -/
inductive Continuation where
  | plain (measureDirt : Bool) (meterID : Option MeterID) (gcKrefs : Nat)
  | bringOutYourDead
  | startVat (meterID : Option MeterID)
  | createVat (meterID : Option MeterID)
  | changeVatOptions
  | upgradeBoyd (meterID : Option MeterID) (bundleID : JSString) (vatParameters : CapData KSlot)
  | upgradeStart (meterID : Option MeterID) (computrons : Option Nat)
deriving DecidableEq

/-- How far a handler got. -/
inductive Progress where
  | finished (results : CrankResults)
  | delivering (vatID : VatID) (rest : Continuation)

def processSend (vatID : VatID) (target : KSlot) (msg : Message) : KM Progress := do
  match ← lookup vatID with
  | none => throw .assertionFailed
  | some options =>
    let _ ← translateDelivery vatID (.message target msg)
    match msg.result with
    | some result => if options.enablePipelining then requeueKernelPromise result else pure ⟨⟩
    | none => pure ⟨⟩
    beginDelivery vatID
    return .delivering vatID (.plain true options.meterID 0)

/-- Follow the data of settled promises to other settled promises; the stack
holds the slots still to be examined. -/
def scanKernelPromises : Nat → List KSlot → List KSlot → KM (List KSlot)
  | 0, seen, _ => return seen
  | _, seen, [] => return seen
  | fuel + 1, seen, slot :: stack => do
    if slot.type = .promise ∧ slot ∉ seen then
      let kp ← getKernelPromise slot
      match kp.state with
      | .unresolved .. => scanKernelPromises fuel seen stack
      | .fulfilled data => scanKernelPromises fuel (seen ++ [slot]) (data.slots ++ stack)
      | .rejected data => scanKernelPromises fuel (seen ++ [slot]) (data.slots ++ stack)
    else scanKernelPromises fuel seen stack

def getKpidsToRetire (rootKPID : KSlot) (rootSlots : List KSlot) : KM (List KSlot) := do
  let st ← getStore
  let fuel := rootSlots.length + st.promises.sumOver (fun _ p => p.state.slots.length) + 1
  scanKernelPromises fuel [rootKPID] rootSlots

def settledPromise (kpid : KSlot) : KM (KSlot × PromiseState) := do
  let tp ← getKernelPromise kpid
  match tp.state with
  | .unresolved .. => throw .assertionFailed
  | state => return (kpid, state)

def processNotify (vatID : VatID) (kpid : KSlot) : KM Progress := do
  match ← lookup vatID with
  | none => return .finished NO_DELIVERY_CRANK_RESULTS
  | some options =>
    let p ← getKernelPromise kpid
    provideVatKeeper vatID
    match p.state with
    | .unresolved .. => throw (.spuriousNotification kpid)
    | _ => pure ⟨⟩
    if !(← hasCListEntry vatID kpid) then return .finished NO_DELIVERY_CRANK_RESULTS
    else
      let targets ← getKpidsToRetire kpid p.state.slots
      let resolutions ← targets.mapM settledPromise
      let _ ← translateDelivery vatID (.notify resolutions)
      deleteCListEntriesForKernelSlots vatID targets
      beginDelivery vatID
      return .delivering vatID (.plain true options.meterID 0)

def processGCMessage (type : GcActionType) (vatID : VatID) (krefs : List KSlot) :
    KM Progress := do
  match ← lookup vatID with
  | none => return .finished NO_DELIVERY_CRANK_RESULTS
  | some _ =>
    if type = .retireExport then krefs.forM deleteKernelObject else pure ⟨⟩
    let _ ← translateDelivery vatID (.gc type krefs)
    beginDelivery vatID
    return .delivering vatID (.plain true none krefs.length)

def processBringOutYourDead (vatID : VatID) : KM Progress := do
  match ← lookup vatID with
  | none => return .finished NO_DELIVERY_CRANK_RESULTS
  | some _ =>
    let _ ← translateDelivery vatID .bringOutYourDead
    beginDelivery vatID
    return .delivering vatID .bringOutYourDead

def processCleanupTerminatedVat (vatID : VatID) (budget : CleanupBudget)
    (report : UndertakerReport) : KM Progress := do
  let (done, _) ← cleanupAfterTerminatedVat vatID budget report
  if done then forgetTerminatedVat vatID else pure ⟨⟩
  return .finished { NO_DELIVERY_CRANK_RESULTS with computrons := some 0 }

/-- Set the parameters, translate them and release the event's references. -/
def startVatDelivery (vatID : VatID) (vatParameters : CapData KSlot) : KM PUnit := do
  let _ ← translateDelivery vatID (.startVat vatParameters)
  decrementSlots vatParameters.slots
  beginDelivery vatID

def processStartVat (vatID : VatID) (vatParameters : CapData KSlot)
    (rest : Option MeterID → Continuation) : KM Progress := do
  match ← lookup vatID with
  | none => return .finished NO_DELIVERY_CRANK_RESULTS
  | some options =>
    provideVatKeeper vatID
    setVatParameters vatID vatParameters
    startVatDelivery vatID vatParameters
    return .delivering vatID (rest options.meterID)

def rootVref : JSString := ['o', '+', '0']

def exportRootObject (vatID : VatID) : KM KSlot := do
  provideVatKeeper vatID
  mapVatSlotToKernelSlot vatID rootVref .standard

/-- The results of a create-vat event whose startVat was not delivered. -/
def createVatFailed (vatID : VatID) : CrankResults :=
  { NO_DELIVERY_CRANK_RESULTS with
    didDelivery := some vatID
    abort := true
    consumeMessage := true
    terminate := some (vatID, makeError) }

/-- `processCreateVat` after a startVat that was happy. -/
def reportNewVat (vatID : VatID) (results : CrankResults) : KM CrankResults := do
  let kernelRootObjSlot ← exportRootObject vatID
  return { results with vatAdminMethargs := some ⟨.value [0], [kernelRootObjSlot]⟩ }

def processCreateVat (vatID : VatID) (source : Source) (vatParameters : CapData KSlot)
    (dynamicOptions : VatOptions) (workerStarts : Bool) : KM Progress := do
  insist ((← getStore).vatAdminRootKref.isSome = true) .assertionFailed
  addDynamicVatID vatID
  createVatState vatID source dynamicOptions
  match ← StateProgram.attempt (ensureVatOnline vatID false workerStarts) with
  | .error _ => return .finished (createVatFailed vatID)
  | .ok _ =>
    match ← processStartVat vatID vatParameters .createVat with
    | .delivering v rest => return .delivering v rest
    | .finished results => return .finished (← reportNewVat vatID results)

def setKernelVatOption (vatID : VatID) (reapInterval : Threshold) : KM PUnit := do
  match reapInterval with
  | .absent => pure ⟨⟩
  | interval =>
    provideVatKeeper vatID
    let options ← getOptions vatID
    setReapDirtThreshold vatID { options.reapDirtThreshold with deliveries := interval }

def processChangeVatOptions (vatID : VatID) (options : ChangedOptions) : KM Progress := do
  match ← lookup vatID with
  | none => return .finished NO_DELIVERY_CRANK_RESULTS
  | some _ =>
    setKernelVatOption vatID options.reapInterval
    if options.forVat then
      let _ ← translateDelivery vatID .changeVatOptions
      beginDelivery vatID
      return .delivering vatID .changeVatOptions
    else return .finished NO_DELIVERY_CRANK_RESULTS

def processUpgradeVat (vatID : VatID) (bundleID : JSString) (vatParameters : CapData KSlot) :
    KM Progress := do
  insist ((← getStore).vatAdminRootKref.isSome = true) .assertionFailed
  match ← lookup vatID with
  | none => return .finished NO_DELIVERY_CRANK_RESULTS
  | some options =>
    provideVatKeeper vatID
    insistCurrentSpan vatID
    let _ ← translateDelivery vatID .bringOutYourDead
    beginDelivery vatID
    return .delivering vatID (.upgradeBoyd options.meterID bundleID vatParameters)

/-- What only the environment decides while an event is processed. -/
structure Environment where
  report : UndertakerReport
  workerStarts : Bool
deriving DecidableEq

/-- The first half of `deliverRunQueueEvent`. -/
def deliverRunQueueEvent (message : RunQueueEvent) (env : Environment) : KM Progress := do
  match message with
  | .send target msg =>
    match ← routeSendEvent target msg with
    | .splat =>
      decrementSendEventRefCount target msg
      return .finished NO_DELIVERY_CRANK_RESULTS
    | .requeue =>
      addMessageToPromiseQueue target msg
      return .finished NO_DELIVERY_CRANK_RESULTS
    | .deliver vatID newTarget =>
      decrementSendEventRefCount target msg
      recordOutcome msg (.delivered vatID)
      processSend vatID newTarget msg
  | .notify vatID kpid =>
    decrementRefCount kpid .reachable
    processNotify vatID kpid
  | .createVat vatID source vatParameters dynamicOptions =>
    processCreateVat vatID source vatParameters dynamicOptions env.workerStarts
  | .startVat vatID vatParameters => processStartVat vatID vatParameters .startVat
  | .upgradeVat vatID _ bundleID vatParameters => processUpgradeVat vatID bundleID vatParameters
  | .changeVatOptions vatID options => processChangeVatOptions vatID options
  | .cleanupTerminatedVat vatID budget => processCleanupTerminatedVat vatID budget env.report
  | .negatedGcAction => return .finished NO_DELIVERY_CRANK_RESULTS
  | .bringOutYourDead vatID => processBringOutYourDead vatID
  | .gc type vatID krefs => processGCMessage type vatID krefs

/-- `deliverAndLogToVat` from the point where the worker is done. -/
def endDelivery (vatID : VatID) (isBoyd : Bool) (useTranscript : Bool)
    (report : DeliveryReport) : KM PUnit := do
  if useTranscript then insistCurrentSpan vatID else pure ⟨⟩
  if isBoyd then clearReapDirt vatID else pure ⟨⟩
  if report.ok then pure ⟨⟩ else stopWorker vatID

def abortUpgrade (vatID : VatID) (badDeliveryResults : CrankResults)
    (computrons : Option Nat) : KM Progress := do
  stopWorker vatID
  return .finished
    { badDeliveryResults with
      computrons
      abort := true
      consumeMessage := true
      terminate := none
      vatAdminMethargs := some ⟨.value [], []⟩ }

/-- Reject the promises of the old incarnation, and forget those that the vat
will not be told about. -/
def disconnectPromises (vatID : VatID) : KM PUnit :=
  forPromisesByDecider vatID fun kpid p => do
    let selfSubscribed :=
      match p.state with
      | .unresolved _ _ subscribers _ => decide (vatID ∈ subscribers)
      | _ => false
    resolveToError kpid makeError (some vatID)
    if selfSubscribed then pure ⟨⟩ else deleteCListEntriesForKernelSlots vatID [kpid]

def finishUpgradeBoyd (vatID : VatID) (meterID : Option MeterID) (bundleID : JSString)
    (vatParameters : CapData KSlot) (report : DeliveryReport) : KM Progress := do
  let boydResults ← deliveryCrankResults vatID report false none 0
  let computrons := addComputrons none boydResults.computrons
  if boydResults.terminate.isSome then abortUpgrade vatID boydResults computrons
  else
    disconnectPromises vatID
    let abandoned ← enumerateNonDurableObjectExports vatID
    abandoned.forM fun kref => orphanKernelObject kref vatID
    beginNewWorkerIncarnation vatID
    let options ← getOptions vatID
    setSourceAndOptions vatID (.bundleID bundleID) options
    setVatParameters vatID vatParameters
    startVatDelivery vatID vatParameters
    return .delivering vatID (.upgradeStart meterID computrons)

def finishUpgradeStart (vatID : VatID) (meterID : Option MeterID) (boydComputrons : Option Nat)
    (report : DeliveryReport) : KM Progress := do
  let startVatResults ← deliveryCrankResults vatID report true meterID 0
  let computrons := addComputrons boydComputrons startVatResults.computrons
  if startVatResults.terminate.isSome then abortUpgrade vatID startVatResults computrons
  else
    return .finished
      { NO_DELIVERY_CRANK_RESULTS with
        computrons
        meterID
        vatAdminMethargs := some ⟨.value [], []⟩ }

def finishCreateVat (vatID : VatID) (meterID : Option MeterID) (report : DeliveryReport) :
    KM Progress := do
  let results ← deliveryCrankResults vatID report true meterID 0
  let startResults := { results with consumeMessage := true }
  if startResults.terminate.isSome then return .finished startResults
  else return .finished (← reportNewVat vatID startResults)

def Continuation.isBoyd : Continuation → Bool
  | .bringOutYourDead => true
  | .upgradeBoyd .. => true
  | _ => false

/-- The second half of a handler. -/
def continueDelivery (vatID : VatID) (rest : Continuation) (report : DeliveryReport) :
    KM Progress := do
  match rest with
  | .plain measureDirt meterID gcKrefs =>
    return .finished (← deliveryCrankResults vatID report measureDirt meterID gcKrefs)
  | .bringOutYourDead =>
    return .finished (← deliveryCrankResults vatID report false none 0)
  | .startVat meterID =>
    let results ← deliveryCrankResults vatID report true meterID 0
    return .finished { results with consumeMessage := true }
  | .createVat meterID => finishCreateVat vatID meterID report
  | .changeVatOptions =>
    let results ← deliveryCrankResults vatID report false none 0
    return .finished { results with consumeMessage := true }
  | .upgradeBoyd meterID bundleID vatParameters =>
    finishUpgradeBoyd vatID meterID bundleID vatParameters report
  | .upgradeStart meterID computrons => finishUpgradeStart vatID meterID computrons report

end Deliveries

section EndOfCrank

/-- The point to which an aborted crank goes back. -/
def CrankResults.savepoint (results : CrankResults) : Savepoint :=
  if results.consumeMessage then .deliver else .start

/-- `maybeSaveSnapshot` up to its own delivery; whether there is one depends on
the length of the transcript span, which the flag stands for. -/
def maybeSaveSnapshot (vatID : VatID) (saveSnapshot : Bool) : KM Bool := do
  let alive ← vatIsAlive vatID
  insist (alive = true) (.vatNotAlive vatID)
  provideVatKeeper vatID
  let options ← getOptions vatID
  if options.useTranscript && saveSnapshot then
    insistCurrentSpan vatID
    ensureVatOnline vatID true true
    let _ ← translateDelivery vatID .bringOutYourDead
    insistCurrentSpan vatID
    return true
  else return false

def notifyMeterThreshold : KM PUnit := do
  let vatAdminRootKref ← required (← getStore).vatAdminRootKref .assertionFailed
  let _ ← queueToKref vatAdminRootKref ⟨.value [], []⟩ .logFailure

def settleMeter (results : CrankResults) : KM PUnit := do
  match truthy results.computrons, results.meterID with
  | some computrons, some meterID =>
    if ← deductMeter meterID computrons then notifyMeterThreshold else pure ⟨⟩
  | _, _ => pure ⟨⟩

def settleDirt (results : CrankResults) : KM PUnit := do
  match results.measureDirt with
  | some (vatID, dirt) =>
    provideVatKeeper vatID
    addDirt vatID dirt
  | none => pure ⟨⟩

def settleTermination (results : CrankResults) : KM PUnit := do
  match results.terminate with
  | some (vatID, info) =>
    terminateVat vatID info
    stopPendingWorkers
  | none => pure ⟨⟩

def settleVatAdmin (results : CrankResults) : KM PUnit := do
  match results.vatAdminMethargs with
  | some methargs =>
    let vatAdminRootKref ← required (← getStore).vatAdminRootKref .assertionFailed
    let _ ← queueToKref vatAdminRootKref methargs .logFailure
  | none => pure ⟨⟩

/-- `processDeliveryMessage` between the rollback or snapshot and the
processing of reference counts. -/
def settleCrank (results : CrankResults) : KM PUnit := do
  settleMeter results
  settleDirt results
  settleTermination results
  settleVatAdmin results

def finishCrank : KM PUnit := do
  processRefcounts
  incrementCrankNumber
  emitCrankHashes
  endCrank

end EndOfCrank

section Scheduling

/-- Which of the two processors a message goes to. -/
inductive Scheduled where
  | nothing
  | acceptance (message : RunQueueEvent)
  | delivery (message : RunQueueEvent)

def getNextMessageAndProcessor (allowCleanup : AllowCleanup) : KM Scheduled := do
  match ← getNextAcceptanceQueueMsg with
  | some message => return .acceptance message
  | none =>
    match ← nextCleanupTerminatedVatAction allowCleanup with
    | some message => return .delivery message
    | none =>
      match ← processGCActionSet with
      | some message => return .delivery message
      | none =>
        match ← nextReapAction with
        | some message => return .delivery message
        | none =>
          match ← getNextRunQueueMsg with
          | some message => return .delivery message
          | none => return .nothing

end Scheduling

end AgoricSdk.SwingSet
