import AgoricSdk.SwingSet.Store

/-!
The kernel keeper: the operations on the object, promise and queue tables, with
the reference counts, gauges and caches they maintain. Operations that look
into a vat's c-list follow in the modules on the vat keeper and on reference
counts.
-/

namespace AgoricSdk.SwingSet

section Access

def getStore : KM KVStore := do return (← get).store

def modifyStore (f : KVStore → KVStore) : KM PUnit :=
  modify fun s => { s with store := f s.store }

/-- `condition || Fail...` -/
def insist (condition : Prop) [Decidable condition] (fault : Fault) : KM PUnit :=
  if condition then pure ⟨⟩ else throw fault

def insistKernelType (type : SlotType) (kref : KSlot) : KM PUnit :=
  insist (kref.type = type) (.notOfType kref)

def required {α : Type} (value : Option α) (fault : Fault) : KM α :=
  match value with
  | some a => pure a
  | none => throw fault

def Stats.add (stats : Stats) (gauge : Gauge) (delta : Int) : Stats := fun g =>
  if g = gauge then stats g + delta else stats g

def incStat (gauge : Gauge) (delta : Nat) : KM PUnit :=
  modify fun s => { s with stats := s.stats.add gauge delta }

def decStat (gauge : Gauge) (delta : Nat) : KM PUnit :=
  modify fun s => { s with stats := s.stats.add gauge (-delta) }

/-- Order of strings, as of database keys and of `Array.prototype.sort`. -/
def lexLE : JSString → JSString → Bool
  | [], _ => true
  | _ :: _, [] => false
  | c :: cs, d :: ds => if c = d then lexLE cs ds else decide (c ≤ d)

def sortBy {α : Type} (key : α → JSString) (xs : List α) : List α :=
  xs.insertionSort fun a b => lexLE (key a) (key b)

def vatIDKey (vatID : VatID) : JSString := 'v' :: decimal vatID

def KSlot.key (kref : KSlot) : JSString :=
  'k' :: kref.type.char :: decimal kref.id

end Access

section Savepoints

def saveStats : KM PUnit :=
  modify fun s => { s with store := { s.store with kernelStats := s.stats } }

def loadStats : KM PUnit :=
  modify fun s => { s with stats := s.store.kernelStats }

inductive Savepoint where
  | start
  | deliver
deriving DecidableEq

/-- A later savepoint is released when an earlier one is rolled back to or
established again. -/
def establishCrankSavepoint : Savepoint → KM PUnit
  | .start => modify fun s => { s with savedStart := some s.store, savedDeliver := none }
  | .deliver => modify fun s => { s with savedDeliver := some s.store }

/-- The database goes back to the savepoint and the statistics are read back
from it; nothing else in memory changes. -/
def rollbackCrank (savepoint : Savepoint) : KM PUnit := do
  let s ← get
  match savepoint with
  | .start =>
    let saved ← required s.savedStart .assertionFailed
    modify fun s => { s with store := saved, savedDeliver := none }
  | .deliver =>
    let saved ← required s.savedDeliver .assertionFailed
    modify fun s => { s with store := saved }
  loadStats

def emitCrankHashes : KM PUnit := saveStats

def endCrank : KM PUnit :=
  modify fun s => { s with savedStart := none, savedDeliver := none }

def incrementCrankNumber : KM PUnit :=
  modifyStore fun st => { st with crankNumber := st.crankNumber + 1 }

end Savepoints

section Queues

def addToRunQueue (event : RunQueueEvent) : KM PUnit := do
  modifyStore fun st => { st with runQueue := st.runQueue ++ [event] }
  incStat .runQueueLength 1

def addToAcceptanceQueue (event : RunQueueEvent) : KM PUnit := do
  modifyStore fun st => { st with acceptanceQueue := st.acceptanceQueue ++ [event] }
  incStat .acceptanceQueueLength 1

def getNextRunQueueMsg : KM (Option RunQueueEvent) := do
  match (← getStore).runQueue with
  | [] => return none
  | event :: rest =>
    modifyStore fun st => { st with runQueue := rest }
    decStat .runQueueLength 1
    return some event

def getNextAcceptanceQueueMsg : KM (Option RunQueueEvent) := do
  match (← getStore).acceptanceQueue with
  | [] => return none
  | event :: rest =>
    modifyStore fun st => { st with acceptanceQueue := rest }
    decStat .acceptanceQueueLength 1
    return some event

def scheduleReap (vatID : VatID) : KM PUnit :=
  modifyStore fun st =>
    if vatID ∈ st.reapQueue then st else { st with reapQueue := st.reapQueue ++ [vatID] }

def nextReapAction : KM (Option RunQueueEvent) := do
  match (← getStore).reapQueue with
  | [] => return none
  | vatID :: rest =>
    modifyStore fun st => { st with reapQueue := rest }
    return some (.bringOutYourDead vatID)

end Queues

section GcActionSet

def GcActionType.name : GcActionType → JSString
  | .dropExport => ['d', 'r', 'o', 'p', 'E', 'x', 'p', 'o', 'r', 't']
  | .retireExport => ['r', 'e', 't', 'i', 'r', 'e', 'E', 'x', 'p', 'o', 'r', 't']
  | .retireImport => ['r', 'e', 't', 'i', 'r', 'e', 'I', 'm', 'p', 'o', 'r', 't']

def GcAction.key (action : GcAction) : JSString :=
  vatIDKey action.vatID ++ [' '] ++ action.type.name ++ [' '] ++ action.kref.key

def setGCActions (actions : List GcAction) : KM PUnit :=
  modifyStore fun st => { st with gcActions := sortBy GcAction.key actions }

/-- Add to a set kept as a list without repetitions. -/
def addIfMissing {α : Type} [DecidableEq α] (xs : List α) (x : α) : List α :=
  if x ∈ xs then xs else xs ++ [x]

def addGCActions (newActions : List GcAction) : KM PUnit := do
  newActions.forM fun action => insistKernelType .object action.kref
  setGCActions (newActions.foldl addIfMissing (← getStore).gcActions)

end GcActionSet

section ReferenceCounts

structure ObjectRefCount where
  exists_ : Bool
  reachable : Nat
  recognizable : Nat
deriving DecidableEq

def getObjectRefCount (kref : KSlot) : KM ObjectRefCount := do
  match (← getStore).refCount.lookup kref with
  | none => return ⟨false, 0, 0⟩
  | some (reachable, recognizable) =>
    insist (reachable ≤ recognizable) (.refmismatch kref)
    return ⟨true, reachable, recognizable⟩

def setObjectRefCount (kref : KSlot) (reachable recognizable : Int) : KM PUnit := do
  insist (0 ≤ reachable ∧ 0 ≤ recognizable) (.underflow kref)
  insist (reachable ≤ recognizable) (.refmismatch kref)
  modifyStore fun st =>
    { st with refCount := st.refCount.insert kref (reachable.toNat, recognizable.toNat) }

/-- `isExport` says that the reference is a c-list export, which counts for
promises but not for objects. -/
structure RefOptions where
  isExport : Bool
  onlyRecognizable : Bool

/-- The default: a reference that keeps an object reachable. -/
def RefOptions.reachable : RefOptions := ⟨false, false⟩

def addMaybeFreeKref (kref : KSlot) : KM PUnit :=
  modify fun s => { s with maybeFreeKrefs := addIfMissing s.maybeFreeKrefs kref }

def setPromiseRefCount (kpid : KSlot) (refCount : Nat) : KM PUnit :=
  modifyStore fun st =>
    match st.promises.lookup kpid with
    | some p => { st with promises := st.promises.insert kpid { p with refCount } }
    | none => st

def incrementRefCount (kref : KSlot) (options : RefOptions) : KM PUnit := do
  match kref.type with
  | .promise =>
    let p ← required ((← getStore).promises.lookup kref) .storageLacksRequiredKey
    setPromiseRefCount kref (p.refCount + 1)
  | .object =>
    if options.isExport then pure ⟨⟩
    else
      let counts ← getObjectRefCount kref
      let reachable := if options.onlyRecognizable then counts.reachable else counts.reachable + 1
      setObjectRefCount kref reachable (counts.recognizable + 1)
  | .device => pure ⟨⟩

def kernelObjectExists (kref : KSlot) : KM Bool := do
  return (← getStore).refCount.has kref

def decrementRefCount (kref : KSlot) (options : RefOptions) : KM PUnit := do
  match kref.type with
  | .promise =>
    let p ← required ((← getStore).promises.lookup kref) .storageLacksRequiredKey
    insist (0 < p.refCount) (.refCountUnderflow kref)
    setPromiseRefCount kref (p.refCount - 1)
    if p.refCount - 1 = 0 then addMaybeFreeKref kref else pure ⟨⟩
  | .object =>
    if !options.isExport && (← kernelObjectExists kref) then
      let counts ← getObjectRefCount kref
      let reachable : Int :=
        if options.onlyRecognizable then counts.reachable else counts.reachable - 1
      let recognizable : Int := counts.recognizable - 1
      if reachable = 0 ∨ recognizable = 0 then addMaybeFreeKref kref else pure ⟨⟩
      setObjectRefCount kref reachable recognizable
    else pure ⟨⟩
  | .device => pure ⟨⟩

/-- Each slot of a list gets one reference more. -/
def incrementSlots (slots : List KSlot) : KM PUnit :=
  slots.forM fun slot => incrementRefCount slot .reachable

def decrementSlots (slots : List KSlot) : KM PUnit :=
  slots.forM fun slot => decrementRefCount slot .reachable

end ReferenceCounts

section Objects

def addKernelObject (ownerID : VatID) : KM KSlot := do
  let id := (← getStore).koNextID
  modifyStore fun st => { st with koNextID := id + 1 }
  let kref := KSlot.object id
  modifyStore fun st => { st with owner := st.owner.insert kref ownerID }
  setObjectRefCount kref 0 0
  incStat .kernelObjects 1
  return kref

def ownerOfKernelObject (kref : KSlot) : KM (Option VatID) := do
  insistKernelType .object kref
  match (← getStore).owner.lookup kref with
  | none => return none
  | some owner => if owner ∈ (← get).terminatedVats then return none else return some owner

def deleteKernelObject (kref : KSlot) : KM PUnit := do
  modifyStore fun st =>
    { st with owner := st.owner.erase kref, refCount := st.refCount.erase kref }
  decStat .kernelObjects 1

def getReachableAndVatSlot (vatID : VatID) (kref : KSlot) : KM (Bool × JSString) := do
  required ((← getStore).clistK.lookup (vatID, kref)) .nonStringValue

/-- Drop both halves of a c-list entry, and nothing else. -/
def eraseCListPair (vatID : VatID) (kref : KSlot) (vref : JSString) : KM PUnit :=
  modifyStore fun st =>
    { st with
      clistK := st.clistK.erase (vatID, kref)
      clistV := st.clistV.erase (vatID, vref) }

def orphanKernelObject (kref : KSlot) (oldVat : VatID) : KM PUnit := do
  insist ((← getStore).owner.lookup kref = some oldVat) (.notOwnedByOldVat kref)
  modifyStore fun st => { st with owner := st.owner.erase kref }
  let (_, vref) ← getReachableAndVatSlot oldVat kref
  eraseCListPair oldVat kref vref
  insistKernelType .object kref
  addMaybeFreeKref kref

def addKernelDeviceNode (deviceID : DeviceID) : KM KSlot := do
  let id := (← getStore).kdNextID
  let kref := KSlot.device id
  modifyStore fun st =>
    { st with kdNextID := id + 1, deviceOwner := st.deviceOwner.insert kref deviceID }
  incStat .kernelDevices 1
  return kref

def ownerOfKernelDevice (kref : KSlot) : KM DeviceID := do
  insistKernelType .device kref
  required ((← getStore).deviceOwner.lookup kref) .assertionFailed

end Objects

section Promises

def addKernelPromise (policy : ResolutionPolicy) : KM KSlot := do
  let id := (← getStore).kpNextID
  let kpid := KSlot.promise id
  modifyStore fun st =>
    { st with
      kpNextID := id + 1
      promises := st.promises.insert kpid ⟨0, .unresolved none policy [] []⟩ }
  incStat .kernelPromises 1
  incStat .kpUnresolved 1
  return kpid

def hasKernelPromise (kpid : KSlot) : KM Bool := do
  insistKernelType .promise kpid
  return (← getStore).promises.has kpid

def getKernelPromise (kpid : KSlot) : KM KernelPromise := do
  insistKernelType .promise kpid
  required ((← getStore).promises.lookup kpid) .storageLacksRequiredKey

def setPromiseState (kpid : KSlot) (state : PromiseState) : KM PUnit :=
  modifyStore fun st =>
    match st.promises.lookup kpid with
    | some p => { st with promises := st.promises.insert kpid { p with state } }
    | none => st

/-- The parts of an unresolved promise; any other state throws. -/
def getUnresolvedPromise (kpid : KSlot) :
    KM (Option VatID × ResolutionPolicy × List VatID × List Message) := do
  let p ← getKernelPromise kpid
  match p.state with
  | .unresolved decider policy subscribers queue => return (decider, policy, subscribers, queue)
  | _ => throw (.alreadyResolved kpid)

def addKernelPromiseForVat (deciderVatID : VatID) : KM KSlot := do
  let kpid ← addKernelPromise .ignore
  setPromiseState kpid (.unresolved (some deciderVatID) .ignore [] [])
  return kpid

/-- `expectedDecider` is `none` for the kernel itself. -/
def getResolveablePromise (kpid : KSlot) (expectedDecider : Option VatID) :
    KM (ResolutionPolicy × List VatID) := do
  let (decider, policy, subscribers, _) ← getUnresolvedPromise kpid
  insist (decider = expectedDecider) (.wrongDecider kpid decider)
  return (policy, subscribers)

def PromiseState.gauge : PromiseState → Gauge
  | .unresolved .. => .kpUnresolved
  | .fulfilled _ => .kpFulfilled
  | .rejected _ => .kpRejected

def deleteKernelPromise (kpid : KSlot) : KM PUnit := do
  let p ← required ((← getStore).promises.lookup kpid) .storageLacksRequiredKey
  decStat p.state.gauge 1
  decStat .kernelPromises 1
  modifyStore fun st => { st with promises := st.promises.erase kpid }

/-- Move every message of a promise's queue to the acceptance queue. -/
def requeueKernelPromise (kpid : KSlot) : KM PUnit := do
  let (decider, policy, subscribers, queue) ← getUnresolvedPromise kpid
  queue.forM fun msg => addToAcceptanceQueue (.send kpid msg)
  decStat .promiseQueuesLength queue.length
  setPromiseState kpid (.unresolved decider policy subscribers [])

def resolveKernelPromise (kpid : KSlot) (rejected : Bool) (data : CapData KSlot) : KM PUnit := do
  insistKernelType .promise kpid
  incrementSlots data.slots
  requeueKernelPromise kpid
  decStat .kpUnresolved 1
  if rejected then
    incStat .kpRejected 1
    setPromiseState kpid (.rejected data)
  else
    incStat .kpFulfilled 1
    setPromiseState kpid (.fulfilled data)

def addMessageToPromiseQueue (kpid : KSlot) (msg : Message) : KM PUnit := do
  let (decider, policy, subscribers, queue) ← getUnresolvedPromise kpid
  setPromiseState kpid (.unresolved decider policy subscribers (queue ++ [msg]))
  incStat .promiseQueuesLength 1

def setDecider (kpid : KSlot) (newDecider : VatID) : KM PUnit := do
  let (decider, policy, subscribers, queue) ← getUnresolvedPromise kpid
  insist (decider = none) .assertionFailed
  setPromiseState kpid (.unresolved (some newDecider) policy subscribers queue)

def clearDecider (kpid : KSlot) : KM PUnit := do
  let (decider, policy, subscribers, queue) ← getUnresolvedPromise kpid
  insist (decider ≠ none) .assertionFailed
  setPromiseState kpid (.unresolved none policy subscribers queue)

def addSubscriberToPromise (kpid : KSlot) (vatID : VatID) : KM PUnit := do
  let (decider, policy, subscribers, queue) ← getUnresolvedPromise kpid
  setPromiseState kpid
    (.unresolved decider policy (sortBy vatIDKey (addIfMissing subscribers vatID)) queue)

end Promises

section Meters

def allocateMeter (remaining : Option Nat) (threshold : Nat) : KM MeterID := do
  let id := (← getStore).meterNextID
  modifyStore fun st =>
    { st with meterNextID := id + 1, meters := st.meters.insert id ⟨remaining, threshold⟩ }
  return id

def getMeter (meterID : MeterID) : KM Meter := do
  required ((← getStore).meters.lookup meterID) .storageLacksRequiredKey

def addMeterRemaining (meterID : MeterID) (delta : Nat) : KM PUnit := do
  let meter ← getMeter meterID
  modifyStore fun st =>
    { st with
      meters := st.meters.insert meterID { meter with remaining := meter.remaining.map (· + delta) } }

def setMeterThreshold (meterID : MeterID) (threshold : Nat) : KM PUnit := do
  modifyStore fun st =>
    match st.meters.lookup meterID with
    | some meter => { st with meters := st.meters.insert meterID { meter with threshold } }
    | none => st

/-- Can this meter accommodate the spend? -/
def checkMeter (meterID : MeterID) (spent : Nat) : KM Bool := do
  match (← getMeter meterID).remaining with
  | none => return true
  | some remaining => return decide (spent ≤ remaining)

/-- Deduct the meter, and return whether it crossed the notification threshold. -/
def deductMeter (meterID : MeterID) (spent : Nat) : KM Bool := do
  let meter ← getMeter meterID
  match meter.remaining with
  | none => return false
  | some oldRemaining =>
    let remaining := oldRemaining - spent
    modifyStore fun st =>
      { st with meters := st.meters.insert meterID { meter with remaining := some remaining } }
    return decide (remaining < meter.threshold ∧ meter.threshold ≤ oldRemaining)

end Meters

section Vats

def allocateUnusedVatID : KM VatID := do
  let id := (← getStore).vatNextID
  incStat .vats 1
  modifyStore fun st => { st with vatNextID := id + 1 }
  return id

def addDynamicVatID (vatID : VatID) : KM PUnit :=
  modifyStore fun st => { st with dynamicIDs := st.dynamicIDs ++ [vatID] }

/-- The vats with names, by name. -/
def getStaticVats : KM (List VatID) := do
  return (← getStore).vatNames.map (·.2)

def allocateUpgradeID : KM Nat := do
  let id := (← getStore).upgradeNextID
  modifyStore fun st => { st with upgradeNextID := id + 1 }
  return id

def deleteVatID (vatID : VatID) : KM PUnit := do
  if vatID ∈ (← getStore).dynamicIDs then
    modifyStore fun st => { st with dynamicIDs := st.dynamicIDs.filter (· ≠ vatID) }
  else
    modifyStore fun st => { st with vatNames := st.vatNames.eraseP (·.2 = vatID) }
    decStat .vats 1

def markVatAsTerminated (vatID : VatID) : KM PUnit :=
  modify fun s =>
    if vatID ∈ s.terminatedVats then s
    else
      { s with
        terminatedVats := s.terminatedVats ++ [vatID]
        store := { s.store with vatsTerminated := s.terminatedVats ++ [vatID] } }

def forgetTerminatedVat (vatID : VatID) : KM PUnit :=
  modify fun s =>
    { s with
      terminatedVats := s.terminatedVats.filter (· ≠ vatID)
      store := { s.store with vatsTerminated := s.terminatedVats.filter (· ≠ vatID) } }

/-- What a run policy says about cleaning up terminated vats. -/
inductive AllowCleanup where
  | no
  | unlimited
  | budget (budget : CleanupBudget)
deriving DecidableEq

def unlimitedBudget : CleanupBudget := ⟨none, none, none, none, none, none⟩

def nextCleanupTerminatedVatAction (allowCleanup : AllowCleanup) : KM (Option RunQueueEvent) := do
  match allowCleanup, (← get).terminatedVats with
  | .no, _ => return none
  | _, [] => return none
  | .unlimited, vatID :: _ => return some (.cleanupTerminatedVat vatID unlimitedBudget)
  | .budget budget, vatID :: _ => return some (.cleanupTerminatedVat vatID budget)

/-- A vat keeper has no state of its own: what matters is whether it is cached. -/
def provideVatKeeper (vatID : VatID) : KM PUnit := do
  if vatID ∈ (← get).vatKeepers then pure ⟨⟩
  else
    insist ((← getStore).oNextID.has vatID = true) (.vatNotInitialized vatID)
    modify fun s => { s with vatKeepers := vatID :: s.vatKeepers }

def evictVatKeeper (vatID : VatID) : KM PUnit :=
  modify fun s => { s with vatKeepers := s.vatKeepers.filter (· ≠ vatID) }

def vatIsAlive (vatID : VatID) : KM Bool := do
  let s ← get
  return s.store.oNextID.has vatID && decide (vatID ∉ s.terminatedVats)

end Vats

end AgoricSdk.SwingSet
