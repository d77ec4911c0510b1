import AgoricSdk.SwingSet.KernelQueue

/-!
Executing syscalls: the kernel's handlers, the devices that `callNow` invokes
with the hooks of the vat-admin device, and the handler that a worker calls.
What a device does with an invocation is up to its code, so an invocation
comes with a script of the device's own calls and its result.
-/

namespace AgoricSdk.SwingSet

section Devices

def addDeviceImport (deviceID : DeviceID) (kref : KSlot) (nextID : Nat) : KM PUnit := do
  incrementRefCount kref .reachable
  let dref := makeVatSlot kref.type false nextID
  modifyStore fun st =>
    { st with
      devClistD := st.devClistD.insert (deviceID, dref) kref
      devClistK := st.devClistK.insert (deviceID, kref) dref }

def nextDeviceSlotID (deviceID : DeviceID) : SlotType → KM Nat
  | .object => do
    let id ← required ((← getStore).devONextID.lookup deviceID) .storageLacksRequiredKey
    modifyStore fun st => { st with devONextID := st.devONextID.insert deviceID (id + 1) }
    return id
  | .device => do
    let id ← required ((← getStore).devDNextID.lookup deviceID) .storageLacksRequiredKey
    modifyStore fun st => { st with devDNextID := st.devDNextID.insert deviceID (id + 1) }
    return id
  | .promise => do
    let id ← required ((← getStore).devPNextID.lookup deviceID) .storageLacksRequiredKey
    modifyStore fun st => { st with devPNextID := st.devPNextID.insert deviceID (id + 1) }
    return id

def mapKernelSlotToDeviceSlot (deviceID : DeviceID) (kref : KSlot) : KM JSString := do
  if (← getStore).devClistK.has (deviceID, kref) then pure ⟨⟩
  else
    let id ← nextDeviceSlotID deviceID kref.type
    addDeviceImport deviceID kref id
  required ((← getStore).devClistK.lookup (deviceID, kref)) .storageLacksRequiredKey

def mapDeviceSlotToKernelSlot (deviceID : DeviceID) (dref : JSString) : KM KSlot := do
  if (← getStore).devClistD.has (deviceID, dref) then pure ⟨⟩
  else
    let parsed ← parsedVatSlot dref
    insist (parsed.allocatedByVat = true) (.unknownVatSlot dref)
    insist (parsed.type = .device) (.invalidVref dref)
    let kref ← addKernelDeviceNode deviceID
    modifyStore fun st =>
      { st with
        devClistK := st.devClistK.insert (deviceID, kref) dref
        devClistD := st.devClistD.insert (deviceID, dref) kref }
  required ((← getStore).devClistD.lookup (deviceID, dref)) .storageLacksRequiredKey

def mapDeviceSlots (deviceID : DeviceID) (drefs : List JSString) : KM (List KSlot) :=
  drefs.mapM fun dref => mapDeviceSlotToKernelSlot deviceID dref

/-- Messages from a device have no result. -/
def translateSendOnly (deviceID : DeviceID) (targetSlot : JSString)
    (methargs : CapData JSString) : KM (KSlot × Message) := do
  insistVatType .object targetSlot
  let target ← mapDeviceSlotToKernelSlot deviceID targetSlot
  let slots ← mapDeviceSlots deviceID methargs.slots
  return (target, ⟨⟨methargs.body, slots⟩, none, unsentOrigin (.device deviceID) target⟩)

end Devices

section VatAdminHooks

/-- What a caller asks of a hook of the vat-admin device. The bodies are the
parts of the argument that hold the vat parameters or the reason. -/
inductive HookRequest where
  | createByBundle (bundle : JSString) (vatParameters : Body) (dynamicOptions : VatOptions)
  | createByID (bundleID : JSString) (vatParameters : Body) (dynamicOptions : VatOptions)
  | upgrade (vatID : VatID) (bundleID : JSString) (vatParameters : Body)
  | terminate (vatID : VatID) (reason : Body)
  | changeOptions (vatID : VatID) (options : ChangedOptions)
deriving DecidableEq

def queueCreateVat (source : Source) (vatParameters : CapData KSlot)
    (dynamicOptions : VatOptions) : KM PUnit := do
  incrementSlots vatParameters.slots
  let vatID ← allocateUnusedVatID
  addToAcceptanceQueue (.createVat vatID source vatParameters dynamicOptions)

/-- The call of `terminateVat` is not awaited, so an exception in it is lost. -/
def callKernelHook (slots : List KSlot) : HookRequest → KM PUnit
  | .createByBundle bundle vatParameters dynamicOptions => do
    let params ← reserialize vatParameters slots
    queueCreateVat (.bundle bundle) params dynamicOptions
  | .createByID bundleID vatParameters dynamicOptions => do
    insist (bundleID ∈ (← getStore).bundles) .assertionFailed
    let params ← reserialize vatParameters slots
    queueCreateVat (.bundleID bundleID) params dynamicOptions
  | .upgrade vatID bundleID vatParameters => do
    let params ← reserialize vatParameters slots
    incrementSlots params.slots
    let upgradeID ← allocateUpgradeID
    addToAcceptanceQueue (.upgradeVat vatID upgradeID bundleID params)
  | .terminate vatID reason => do
    let info ← reserialize reason slots
    let _ ← StateProgram.attempt (terminateVat vatID info)
  | .changeOptions vatID options => do
    insist (slots = []) .assertionFailed
    addToAcceptanceQueue (.changeVatOptions vatID options)

end VatAdminHooks

section Invocation

/-- One call a device makes while it runs. -/
inductive DeviceCall where
  | sendOnly (target : JSString) (methargs : CapData JSString)
  | callKernelHook (slots : List JSString) (request : HookRequest)
  | meterCreate (remaining : Option Nat) (threshold : Nat)
  | meterAddRemaining (meterID : MeterID) (delta : Nat)
  | meterSetThreshold (meterID : MeterID) (threshold : Nat)
deriving DecidableEq

/-- What the device does with an invocation: its calls in order, whether each
one's exception is caught by the device, and its result (`none` when the
device's code throws or answers with an error). -/
structure DeviceScript where
  calls : List (DeviceCall × Bool)
  result : Option (CapData JSString)
deriving DecidableEq

/-- Only the vat-admin device has hooks and meters. -/
def vatAdminName : JSString := ['v', 'a', 't', 'A', 'd', 'm', 'i', 'n']

def isVatAdminDevice (st : KVStore) (deviceID : DeviceID) : Bool :=
  decide ((vatAdminName, deviceID) ∈ st.deviceNames)

def insistVatAdminDevice (deviceID : DeviceID) : KM PUnit := do
  insist (isVatAdminDevice (← getStore) deviceID = true) .assertionFailed

def runDeviceCall (deviceID : DeviceID) : DeviceCall → KM PUnit
  | .sendOnly target methargs => do
    let (kref, msg) ← translateSendOnly deviceID target methargs
    doSend kref msg
  | .callKernelHook drefs request => do
    let slots ← mapDeviceSlots deviceID drefs
    insistVatAdminDevice deviceID
    callKernelHook slots request
  | .meterCreate remaining threshold => do
    insistVatAdminDevice deviceID
    let _ ← allocateMeter remaining threshold
  | .meterAddRemaining meterID delta => do
    insistVatAdminDevice deviceID
    addMeterRemaining meterID delta
  | .meterSetThreshold meterID threshold => do
    insistVatAdminDevice deviceID
    setMeterThreshold meterID threshold

def runDeviceCalls (deviceID : DeviceID) (calls : List (DeviceCall × Bool)) : KM PUnit :=
  calls.forM fun call => do
    match ← StateProgram.attempt (runDeviceCall deviceID call.1) with
    | .ok _ => pure ⟨⟩
    | .error fault => if call.2 then pure ⟨⟩ else throw fault

/-- The result of a syscall. Both an error and a missing value are possible
answers to a vat that goes on running. -/
inductive SyscallResult where
  | ok
  | value (value : Option JSString)
  | data (data : CapData KSlot)
  | error
deriving DecidableEq

/-- The device manager turns an exception of the device's code into an error
for the calling vat; the changes made so far stay. -/
def invoke (device : KSlot) (args : CapData KSlot) (script : DeviceScript) :
    KM SyscallResult := do
  let deviceID ← ownerOfKernelDevice device
  let dref ← mapKernelSlotToDeviceSlot deviceID device
  let parsed ← parsedVatSlot dref
  insist (parsed.allocatedByVat = true) .unknownDevice
  let _ ← args.slots.mapM fun slot => mapKernelSlotToDeviceSlot deviceID slot
  match ← StateProgram.attempt (runDeviceCalls deviceID script.calls) with
  | .error _ => return .error
  | .ok _ =>
    match script.result with
    | none => return .error
    | some data =>
      let slots ← mapDeviceSlots deviceID data.slots
      return .data ⟨data.body, slots⟩

end Invocation

section Handler

/-- An empty value is read as none. -/
def vatstoreGet (vatID : VatID) (key : JSString) : KM SyscallResult := do
  return .value (((← getStore).vatstore.lookup (vatID, key)).filter fun value => value ≠ [])

def vatstoreSet (vatID : VatID) (key value : JSString) : KM SyscallResult := do
  modifyStore fun st => { st with vatstore := st.vatstore.insert (vatID, key) value }
  return .ok

/-- The least key of the vat's store that is greater than `priorKey`. -/
def vatstoreGetNextKey (vatID : VatID) (priorKey : JSString) : KM SyscallResult := do
  let keys := ((← getStore).vatstore.keys.filter fun e => e.1 = vatID).map (·.2)
  return .value (sortBy id (keys.filter fun key => !lexLE key priorKey)).head?

def vatstoreDelete (vatID : VatID) (key : JSString) : KM SyscallResult := do
  modifyStore fun st => { st with vatstore := st.vatstore.erase (vatID, key) }
  return .ok

def requestTermination (reject : Bool) (info : CapData KSlot) : KM PUnit :=
  modify fun s => { s with vatRequestedTermination := some (reject, info) }

/-- The script is used by `invoke` only. -/
def kernelSyscallHandler (script : DeviceScript) : KernelSyscall → KM SyscallResult
  | .send target msg => do
    doSend target msg
    return .ok
  | .invoke device args => invoke device args script
  | .subscribe vatID kpid => do
    doSubscribe vatID kpid
    return .ok
  | .resolve vatID resolutions => do
    doResolve (some vatID) resolutions
    return .ok
  | .exit _ isFailure info => do
    requestTermination isFailure info
    return .ok
  | .vatstoreGet vatID key => vatstoreGet vatID key
  | .vatstoreSet vatID key value => vatstoreSet vatID key value
  | .vatstoreGetNextKey vatID priorKey => vatstoreGetNextKey vatID priorKey
  | .vatstoreDelete vatID key => vatstoreDelete vatID key
  | .dropImports _ => return .ok
  | .retireImports _ => return .ok
  | .retireExports krefs => do
    retireKernelObjects krefs
    return .ok
  | .abandonExports vatID krefs => do
    krefs.forM fun kref => orphanKernelObject kref vatID
    return .ok

/-- `kernelSyscallResultToVatSyscallResult`: only an invocation's data has
slots to translate. -/
def translateSyscallResult (vatID : VatID) : SyscallResult → KM PUnit
  | .data data => do
    let _ ← translateSlots vatID data.slots
  | _ => pure ⟨⟩

/-- A syscall that makes the vat die: the delivery will be undone. -/
def vatFatalSyscall (fault : Fault) : KM PUnit :=
  modify fun s => { s with illegalSyscall := true, caughtFaults := fault :: s.caughtFaults }

/-- Execute a translated syscall and translate its result. -/
def executeSyscall (vatID : VatID) (script : DeviceScript) (ksc : KernelSyscall) : KM PUnit := do
  let kres ← kernelSyscallHandler script ksc
  translateSyscallResult vatID kres

/-- The handler given to a worker. It never throws: an exception during
translation is fatal to the vat, one during execution to the kernel. -/
def vatSyscallHandler (vatID : VatID) (vso : VatSyscall) (script : DeviceScript) : KM PUnit := do
  match ← lookup vatID with
  | none => vatFatalSyscall .vatIsDead
  | some options =>
    match ← StateProgram.attempt
        (vatSyscallToKernelSyscall vatID options.enablePipelining vso) with
    | .error fault => vatFatalSyscall fault
    | .ok ksc =>
      match ← StateProgram.attempt (executeSyscall vatID script ksc) with
      | .ok _ => pure ⟨⟩
      | .error fault =>
        panic fault
        vatFatalSyscall fault

end Handler

end AgoricSdk.SwingSet
