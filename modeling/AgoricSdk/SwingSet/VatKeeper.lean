import AgoricSdk.SwingSet.KernelKeeper

/-!
The vat keeper: a vat's c-list, its options, its parameters and its dirt. The
c-list keeps two tables, from kernel slots and from vat slots; the first also
carries the reachable flag.
-/

namespace AgoricSdk.SwingSet

section VatState

def FIRST_OBJECT_ID : Nat := 50

def FIRST_PROMISE_ID : Nat := 60

def FIRST_DEVICE_ID : Nat := 70

def noDirt : Dirt := ⟨0, 0, 0⟩

def createVatState (vatID : VatID) (source : Source) (options : VatOptions) : KM PUnit :=
  modifyStore fun st =>
    { st with
      oNextID := st.oNextID.insert vatID FIRST_OBJECT_ID
      pNextID := st.pNextID.insert vatID FIRST_PROMISE_ID
      dNextID := st.dNextID.insert vatID FIRST_DEVICE_ID
      reapDirt := st.reapDirt.insert vatID noDirt
      vatSource := st.vatSource.insert vatID source
      vatOptions := st.vatOptions.insert vatID options
      currentSpans := addIfMissing st.currentSpans vatID }

/-- `transcriptStore.getCurrentSpanBounds`, `addItem` and the rollovers all
need a current span; none of them ends it for good. -/
def insistCurrentSpan (vatID : VatID) : KM PUnit := do
  insist (vatID ∈ (← getStore).currentSpans) (.noCurrentTranscript vatID)

/-- Part of `removeVatFromSwingStoreExports`. -/
def stopUsingTranscript (vatID : VatID) : KM PUnit :=
  modifyStore fun st => { st with currentSpans := st.currentSpans.filter (· ≠ vatID) }

def setSourceAndOptions (vatID : VatID) (source : Source) (options : VatOptions) : KM PUnit :=
  modifyStore fun st =>
    { st with
      vatSource := st.vatSource.insert vatID source
      vatOptions := st.vatOptions.insert vatID options }

def getOptions (vatID : VatID) : KM VatOptions := do
  required ((← getStore).vatOptions.lookup vatID) .storageLacksRequiredKey

def setVatParameters (vatID : VatID) (newVPCD : CapData KSlot) : KM PUnit := do
  incrementSlots newVPCD.slots
  match (← getStore).vatParameters.lookup vatID with
  | some old => decrementSlots old.slots
  | none => pure ⟨⟩
  modifyStore fun st => { st with vatParameters := st.vatParameters.insert vatID newVPCD }

def clearReapDirt (vatID : VatID) : KM PUnit :=
  modifyStore fun st => { st with reapDirt := st.reapDirt.insert vatID noDirt }

/-- A vat's threshold overrides the kernel's. -/
def Threshold.orElse (own default : Threshold) : Threshold :=
  match own with
  | .absent => default
  | _ => own

/-- Dirt of one kind after more of it, and whether it reached the threshold. -/
def Threshold.accumulate (threshold : Threshold) (old more : Nat) : Nat × Bool :=
  match threshold with
  | .atCount n => if n = 0 then (old, false) else (old + more, decide (n ≤ old + more))
  | _ => (old, false)

/-- A component of `moreDirt` that is `none` is a missing key. -/
structure MoreDirt where
  deliveries : Option Nat
  gcKrefs : Option Nat
  computrons : Option Nat
deriving DecidableEq

def addDirtOf (threshold : Threshold) (old : Nat) (more : Option Nat) : Nat × Bool :=
  match more with
  | none => (old, false)
  | some n => threshold.accumulate old n

def addDirt (vatID : VatID) (moreDirt : MoreDirt) : KM PUnit := do
  let st ← getStore
  let dirt ← required (st.reapDirt.lookup vatID) .storageLacksRequiredKey
  let options ← getOptions vatID
  let own := options.reapDirtThreshold
  let default := st.defaultReapDirtThreshold
  let (deliveries, r₁) :=
    addDirtOf (own.deliveries.orElse default.deliveries) dirt.deliveries moreDirt.deliveries
  let (gcKrefs, r₂) := addDirtOf (own.gcKrefs.orElse default.gcKrefs) dirt.gcKrefs moreDirt.gcKrefs
  let (computrons, r₃) :=
    addDirtOf (own.computrons.orElse default.computrons) dirt.computrons moreDirt.computrons
  if own.never || default.never then pure ⟨⟩
  else
    modifyStore fun st =>
      { st with reapDirt := st.reapDirt.insert vatID ⟨deliveries, gcKrefs, computrons⟩ }
    if r₁ || r₂ || r₃ then scheduleReap vatID else pure ⟨⟩

def setReapDirtThreshold (vatID : VatID) (threshold : ReapDirtThreshold) : KM PUnit := do
  let options ← getOptions vatID
  modifyStore fun st =>
    { st with
      vatOptions := st.vatOptions.insert vatID { options with reapDirtThreshold := threshold } }

end VatState

section CList

def parsedVatSlot (vref : JSString) : KM ParsedVatSlot :=
  required (parseVatSlot vref) (.invalidVref vref)

def getReachableFlag (vatID : VatID) (kref : KSlot) : KM Bool := do
  let (isReachable, _) ← getReachableAndVatSlot vatID kref
  return isReachable

def insistNotReachable (vatID : VatID) (kref : KSlot) : KM PUnit := do
  let isReachable ← getReachableFlag vatID kref
  insist (isReachable = false) (.wasReachable kref)

def writeReachableFlag (vatID : VatID) (kref : KSlot) (flag : Bool) (vref : JSString) : KM PUnit :=
  modifyStore fun st => { st with clistK := st.clistK.insert (vatID, kref) (flag, vref) }

def setReachableFlag (vatID : VatID) (kref : KSlot) : KM PUnit := do
  let (isReachable, vref) ← getReachableAndVatSlot vatID kref
  let parsed ← parsedVatSlot vref
  writeReachableFlag vatID kref true vref
  if isReachable = false ∧ kref.type = .object ∧ parsed.allocatedByVat = false then
    let counts ← getObjectRefCount kref
    setObjectRefCount kref (counts.reachable + 1) counts.recognizable
  else pure ⟨⟩

def clearReachableFlag (vatID : VatID) (kref : KSlot) : KM PUnit := do
  let (isReachable, vref) ← getReachableAndVatSlot vatID kref
  let parsed ← parsedVatSlot vref
  writeReachableFlag vatID kref false vref
  let exists_ ← kernelObjectExists kref
  if isReachable = true ∧ kref.type = .object ∧ parsed.allocatedByVat = false ∧
      exists_ = true then
    let counts ← getObjectRefCount kref
    let reachable : Int := counts.reachable - 1
    setObjectRefCount kref reachable counts.recognizable
    if reachable = 0 then addMaybeFreeKref kref else pure ⟨⟩
  else pure ⟨⟩

def importsKernelSlot (vatID : VatID) (kref : KSlot) : KM Bool := do
  match (← getStore).clistK.lookup (vatID, kref) with
  | none => return false
  | some (_, vref) =>
    let parsed ← parsedVatSlot vref
    return !parsed.allocatedByVat

def hasCListEntry (vatID : VatID) (kref : KSlot) : KM Bool := do
  return (← getStore).clistK.has (vatID, kref)

structure MapOptions where
  setReachable : Bool
  required : Bool
  requireNew : Bool

/-- The options of an ordinary translation. -/
def MapOptions.standard : MapOptions := ⟨true, false, false⟩

/-- Translations for garbage collection: the entry must exist, the flag stays. -/
def MapOptions.gc : MapOptions := ⟨false, true, false⟩

/-- Allocate a new kernel slot for something a vat exports. -/
def exportVatSlot (vatID : VatID) (vref : JSString) (type : SlotType) : KM PUnit := do
  let kref ←
    match type with
    | .object => addKernelObject vatID
    | .device => throw (.deviceNodeExport vref)
    | .promise => addKernelPromiseForVat vatID
  incrementRefCount kref ⟨true, true⟩
  incStat .clistEntries 1
  modifyStore fun st =>
    { st with
      clistK := st.clistK.insert (vatID, kref) (false, vref)
      clistV := st.clistV.insert (vatID, vref) kref }

def mapVatSlotToKernelSlot (vatID : VatID) (vref : JSString) (options : MapOptions) :
    KM KSlot := do
  let parsed ← parsedVatSlot vref
  if (← getStore).clistV.has (vatID, vref) then
    insist (options.requireNew = false) (.vrefAlreadyAllocated vref)
  else
    insist (options.required = false) (.vrefNotInClist vref)
    insist (parsed.allocatedByVat = true) (.unknownVatSlot vref)
    exportVatSlot vatID vref parsed.type
  let kref ← required ((← getStore).clistV.lookup (vatID, vref)) .storageLacksRequiredKey
  if options.setReachable then
    if parsed.allocatedByVat then setReachableFlag vatID kref
    else
      let (isReachable, _) ← getReachableAndVatSlot vatID kref
      insist (isReachable = true) (.unreachableImport vref)
  else pure ⟨⟩
  return kref

def nextVatSlotID (vatID : VatID) : SlotType → KM Nat
  | .object => do
    let id ← required ((← getStore).oNextID.lookup vatID) .storageLacksRequiredKey
    modifyStore fun st => { st with oNextID := st.oNextID.insert vatID (id + 1) }
    return id
  | .device => do
    let id ← required ((← getStore).dNextID.lookup vatID) .storageLacksRequiredKey
    modifyStore fun st => { st with dNextID := st.dNextID.insert vatID (id + 1) }
    return id
  | .promise => do
    let id ← required ((← getStore).pNextID.lookup vatID) .storageLacksRequiredKey
    modifyStore fun st => { st with pNextID := st.pNextID.insert vatID (id + 1) }
    return id

/-- Allocate a new vat slot for something the kernel sends to a vat. -/
def importKernelSlot (vatID : VatID) (kref : KSlot) : KM PUnit := do
  let id ← nextVatSlotID vatID kref.type
  incrementRefCount kref ⟨false, true⟩
  let vref := makeVatSlot kref.type false id
  incStat .clistEntries 1
  modifyStore fun st =>
    { st with
      clistV := st.clistV.insert (vatID, vref) kref
      clistK := st.clistK.insert (vatID, kref) (false, vref) }

def mapKernelSlotToVatSlot (vatID : VatID) (kref : KSlot) (options : MapOptions) :
    KM JSString := do
  if (← getStore).clistK.has (vatID, kref) then pure ⟨⟩
  else
    insist (options.required = false) (.krefNotInClist kref)
    importKernelSlot vatID kref
  let (isReachable, vref) ← getReachableAndVatSlot vatID kref
  let parsed ← parsedVatSlot vref
  if options.setReachable then
    if parsed.allocatedByVat then insist (isReachable = true) (.unreachableExport kref)
    else setReachableFlag vatID kref
  else pure ⟨⟩
  return vref

def deleteCListEntry (vatID : VatID) (kref : KSlot) (vref : JSString) : KM PUnit := do
  let parsed ← parsedVatSlot vref
  insist ((← getStore).clistK.has (vatID, kref) = true) .assertionFailed
  clearReachableFlag vatID kref
  decrementRefCount kref ⟨parsed.allocatedByVat, true⟩
  decStat .clistEntries 1
  eraseCListPair vatID kref vref

def deleteCListEntriesForKernelSlots (vatID : VatID) (krefs : List KSlot) : KM PUnit :=
  krefs.forM fun kref => do
    let vref ← mapKernelSlotToVatSlot vatID kref .standard
    deleteCListEntry vatID kref vref

end CList

end AgoricSdk.SwingSet
