import AgoricSdk.SwingSet.Kernel

/-!
The state that `initializeKernel` makes from a configuration, and the start of
a kernel process on an initialized database.
-/

namespace AgoricSdk.SwingSet

structure VatConfig where
  name : JSString
  bundleID : JSString
  options : VatOptions
deriving DecidableEq

structure KernelConfig where
  vats : List VatConfig
  devices : List JSString
  bundles : List JSString
  bootstrap : Option JSString
  pinBootstrapRoot : Bool
  defaultReapDirtThreshold : ReapDirtThreshold
deriving DecidableEq

section Starting

/-- `createStartingKernelState` with the first number of each kind. -/
def startingStore (cfg : KernelConfig) : KVStore where
  owner := ∅
  refCount := ∅
  koNextID := 20
  promises := ∅
  kpNextID := 40
  deviceOwner := ∅
  kdNextID := 30
  acceptanceQueue := []
  runQueue := []
  gcActions := []
  reapQueue := []
  vatNextID := 1
  dynamicIDs := []
  vatNames := []
  vatsTerminated := []
  clistK := ∅
  clistV := ∅
  oNextID := ∅
  pNextID := ∅
  dNextID := ∅
  vatOptions := ∅
  vatSource := ∅
  reapDirt := ∅
  vatParameters := ∅
  vatstore := ∅
  currentSpans := []
  deviceNextID := 7
  deviceNames := []
  devClistK := ∅
  devClistD := ∅
  devONextID := ∅
  devPNextID := ∅
  devDNextID := ∅
  bundles := cfg.bundles
  upgradeNextID := 1
  meters := ∅
  meterNextID := 1
  pinnedObjects := []
  vatAdminRootKref := none
  defaultReapDirtThreshold := cfg.defaultReapDirtThreshold
  kernelStats := fun _ => 0
  crankNumber := 0
  sendCount := 0
  outcomes := []
  externalHolds := []

def startingState (cfg : KernelConfig) : KernelState where
  store := startingStore cfg
  savedStart := none
  savedDeliver := none
  stats := fun _ => 0
  terminatedVats := []
  maybeFreeKrefs := []
  vatKeepers := []
  online := ∅
  stopping := []
  kernelPanic := none
  vatRequestedTermination := none
  illegalSyscall := false
  caughtFaults := []

def pinObject (kref : KSlot) : KM PUnit := do
  if kref ∈ (← getStore).pinnedObjects then pure ⟨⟩
  else
    incrementRefCount kref .reachable
    modifyStore fun st => { st with pinnedObjects := sortBy KSlot.key (st.pinnedObjects ++ [kref]) }

end Starting

section InitializeKernel

/-- The names under `vat.name.` are enumerated in their order. -/
def allocateVatIDForNameIfNeeded (name : JSString) : KM VatID := do
  match (← getStore).vatNames.find? (·.1 = name) with
  | some (_, vatID) => return vatID
  | none =>
    let vatID ← allocateUnusedVatID
    modifyStore fun st => { st with vatNames := sortBy (·.1) (st.vatNames ++ [(name, vatID)]) }
    return vatID

def addVat (vat : VatConfig) : KM PUnit := do
  let vatID ← allocateVatIDForNameIfNeeded vat.name
  createVatState vatID (.bundleID vat.bundleID) { vat.options with meterID := none }
  addToAcceptanceQueue (.startVat vatID ⟨.value [], []⟩)
  if vat.name = vatAdminName then
    let kref ← exportRootObject vatID
    pinObject kref
    modifyStore fun st => { st with vatAdminRootKref := some kref }
  else pure ⟨⟩

def initializeDeviceState (deviceID : DeviceID) : KM PUnit :=
  modifyStore fun st =>
    { st with
      devONextID := st.devONextID.insert deviceID 10
      devDNextID := st.devDNextID.insert deviceID 20
      devPNextID := st.devPNextID.insert deviceID 30 }

def addDevice (name : JSString) : KM PUnit := do
  if (← getStore).deviceNames.any (·.1 = name) then pure ⟨⟩
  else
    let deviceID := (← getStore).deviceNextID
    modifyStore fun st =>
      { st with
        deviceNextID := deviceID + 1
        deviceNames := sortBy (·.1) (st.deviceNames ++ [(name, deviceID)]) }
    initializeDeviceState deviceID

def rootDref : JSString := ['d', '+', '0']

/-- Bootstrap gets the root of every vat and of every device. -/
def enqueueBootstrap (bootstrapVatID : VatID) : KM PUnit := do
  let vatRoots ← (← getStaticVats).mapM exportRootObject
  let deviceRoots ← (← getStore).deviceNames.mapM fun device =>
    mapDeviceSlotToKernelSlot device.2 rootDref
  let slots := vatRoots ++ deviceRoots
  let rootKref ← exportRootObject bootstrapVatID
  let resultKpid ← queueToKref rootKref ⟨.value (List.range slots.length), slots⟩ .panic
  incrementRefCount resultKpid .reachable
  modifyStore fun st => { st with externalHolds := resultKpid :: st.externalHolds }

def initializeKernel (cfg : KernelConfig) : KM PUnit := do
  cfg.vats.forM addVat
  insist (cfg.vats = [] ∨ (← getStore).vatAdminRootKref.isSome = true) .assertionFailed
  cfg.devices.forM addDevice
  insist (cfg.devices = [] ∨ vatAdminName ∈ cfg.devices) .assertionFailed
  match cfg.bootstrap with
  | none => pure ⟨⟩
  | some name =>
    match (← getStore).vatNames.find? (·.1 = name) with
    | none => throw .storageLacksRequiredKey
    | some (_, bootstrapVatID) =>
      enqueueBootstrap bootstrapVatID
      if cfg.pinBootstrapRoot then
        let kref ← exportRootObject bootstrapVatID
        pinObject kref
      else pure ⟨⟩
  emitCrankHashes

end InitializeKernel

section Start

/-- A new process: everything in memory is made anew from the database. -/
def loadKernel : KM PUnit :=
  modify fun s =>
    { s with
      savedStart := none
      savedDeliver := none
      stats := s.store.kernelStats
      terminatedVats := s.store.vatsTerminated
      maybeFreeKrefs := []
      vatKeepers := []
      online := ∅
      stopping := []
      kernelPanic := none
      vatRequestedTermination := none
      illegalSyscall := false
      caughtFaults := [] }

/-- `kernel.start` brings the first few vats online. -/
def startKernel (maxPreload : Nat) : KM PUnit := do
  loadKernel
  let vats := (← getStaticVats) ++ (← getStore).dynamicIDs
  (vats.take maxPreload).forM fun vatID => ensureVatOnline vatID true true

end Start

end AgoricSdk.SwingSet
