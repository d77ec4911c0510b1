import AgoricSdk.SwingSet.Refcounts

/-!
Translation between a vat's names and the kernel's. Deliveries are translated
on their way to a vat and syscalls on their way to the kernel; both directions
change the c-list, and a translation that throws keeps the changes made so far.
-/

namespace AgoricSdk.SwingSet

section CapData

variable {σ : Type}

/-- `extractSingleSlot`: unserializing throws on a malformed body or on a slot
that is not there. -/
def extractSingleSlot (data : CapData σ) : KM (Option σ) :=
  match data.body with
  | .malformed => throw .unserializable
  | .slot i =>
    match data.slots[i]? with
    | some slot => pure (some slot)
    | none => throw .unserializable
  | .value indices =>
    if indices.all (· < data.slots.length) then pure none else throw .unserializable

/-- `kser(kunser(part))` for a part of a value over these slots: each slot
mentioned is listed once, in the order of its first mention. -/
def reserialize (part : Body) (slots : List σ) : KM (CapData σ) :=
  match part with
  | .malformed => throw .unserializable
  | .slot i =>
    match slots[i]? with
    | some slot => pure ⟨.slot 0, [slot]⟩
    | none => throw .unserializable
  | .value indices =>
    match indices.eraseDups.mapM (slots[·]?) with
    | some mentioned => pure ⟨.value (List.range mentioned.length), mentioned⟩
    | none => throw .unserializable

end CapData

section Deliveries

inductive KernelDelivery where
  | message (target : KSlot) (msg : Message)
  | notify (resolutions : List (KSlot × PromiseState))
  | gc (type : GcActionType) (krefs : List KSlot)
  | changeVatOptions
  | startVat (vatParameters : CapData KSlot)
  | bringOutYourDead

inductive VatDelivery where
  | message (target : JSString) (methargs : CapData JSString) (result : Option JSString)
  | notify (resolutions : List (JSString × Bool × CapData JSString))
  | gc (type : GcActionType) (vrefs : List JSString)
  | changeVatOptions
  | startVat (vatParameters : CapData JSString)
  | bringOutYourDead

def translateSlots (vatID : VatID) (slots : List KSlot) : KM (List JSString) :=
  slots.mapM fun slot => mapKernelSlotToVatSlot vatID slot .standard

def translateTarget (vatID : VatID) (target : KSlot) : KM JSString := do
  let targetSlot ← mapKernelSlotToVatSlot vatID target .standard
  let parsed ← parsedVatSlot targetSlot
  match parsed.type with
  | .object => insist (parsed.allocatedByVat = true) .deliverToWrongVat
  | .promise =>
    let (decider, _, _, _) ← getUnresolvedPromise target
    insist (decider = some vatID) (.wrongDecider target decider)
  | .device => pure ⟨⟩
  return targetSlot

/-- The vat becomes the decider of the result promise. -/
def translateResult (vatID : VatID) (result : KSlot) : KM JSString := do
  insistKernelType .promise result
  let (decider, _, _, _) ← getUnresolvedPromise result
  insist (decider = none) (.wrongDecider result decider)
  let resultSlot ← mapKernelSlotToVatSlot vatID result .standard
  let parsed ← parsedVatSlot resultSlot
  insist (parsed.type = .promise) (.invalidVref resultSlot)
  setDecider result vatID
  return resultSlot

def translateMessage (vatID : VatID) (target : KSlot) (msg : Message) : KM VatDelivery := do
  let targetSlot ← translateTarget vatID target
  let inputSlots ← translateSlots vatID msg.methargs.slots
  match msg.result with
  | none => return .message targetSlot ⟨msg.methargs.body, inputSlots⟩ none
  | some result =>
    let resultSlot ← translateResult vatID result
    return .message targetSlot ⟨msg.methargs.body, inputSlots⟩ (some resultSlot)

def translateResolution (vatID : VatID) (resolution : KSlot × PromiseState) :
    KM (JSString × Bool × CapData JSString) := do
  let (kpid, state) := resolution
  match state with
  | .unresolved .. => throw (.spuriousNotification kpid)
  | .fulfilled data =>
    let vpid ← mapKernelSlotToVatSlot vatID kpid .standard
    let slots ← translateSlots vatID data.slots
    return (vpid, false, ⟨data.body, slots⟩)
  | .rejected data =>
    let vpid ← mapKernelSlotToVatSlot vatID kpid .standard
    let slots ← translateSlots vatID data.slots
    return (vpid, true, ⟨data.body, slots⟩)

def translateDropExports (vatID : VatID) (krefs : List KSlot) : KM VatDelivery := do
  let vrefs ← krefs.mapM fun kref => mapKernelSlotToVatSlot vatID kref .gc
  krefs.forM fun kref => clearReachableFlag vatID kref
  return .gc .dropExport vrefs

/-- Retiring exports and retiring imports do the same. -/
def translateRetire (type : GcActionType) (vatID : VatID) (krefs : List KSlot) :
    KM VatDelivery := do
  let vrefs ← krefs.mapM fun kref => do
    let vref ← mapKernelSlotToVatSlot vatID kref .gc
    deleteCListEntry vatID kref vref
    return vref
  return .gc type vrefs

def kernelDeliveryToVatDelivery (vatID : VatID) : KernelDelivery → KM VatDelivery
  | .message target msg => translateMessage vatID target msg
  | .notify resolutions => do return .notify (← resolutions.mapM (translateResolution vatID))
  | .gc .dropExport krefs => translateDropExports vatID krefs
  | .gc .retireExport krefs => translateRetire .retireExport vatID krefs
  | .gc .retireImport krefs => translateRetire .retireImport vatID krefs
  | .changeVatOptions => return .changeVatOptions
  | .startVat vatParameters => do
    return .startVat ⟨vatParameters.body, ← translateSlots vatID vatParameters.slots⟩
  | .bringOutYourDead => return .bringOutYourDead

end Deliveries

section Syscalls

inductive VatSyscall where
  | send (target : JSString) (methargs : CapData JSString) (result : Option JSString)
  | callNow (target : JSString) (args : CapData JSString)
  | subscribe (vpid : JSString)
  | resolve (resolutions : List (JSString × Bool × CapData JSString))
  | exit (isFailure : Bool) (info : CapData JSString)
  | vatstoreGet (key : JSString)
  | vatstoreSet (key value : JSString)
  | vatstoreGetNextKey (priorKey : JSString)
  | vatstoreDelete (key : JSString)
  | dropImports (vrefs : List JSString)
  | retireImports (vrefs : List JSString)
  | retireExports (vrefs : List JSString)
  | abandonExports (vrefs : List JSString)
deriving DecidableEq

inductive KernelSyscall where
  | send (target : KSlot) (msg : Message)
  | invoke (device : KSlot) (args : CapData KSlot)
  | subscribe (vatID : VatID) (kpid : KSlot)
  | resolve (vatID : VatID) (resolutions : List (KSlot × Bool × CapData KSlot))
  | exit (vatID : VatID) (isFailure : Bool) (info : CapData KSlot)
  | vatstoreGet (vatID : VatID) (key : JSString)
  | vatstoreSet (vatID : VatID) (key value : JSString)
  | vatstoreGetNextKey (vatID : VatID) (priorKey : JSString)
  | vatstoreDelete (vatID : VatID) (key : JSString)
  | dropImports (krefs : List KSlot)
  | retireImports (krefs : List KSlot)
  | retireExports (krefs : List KSlot)
  | abandonExports (vatID : VatID) (krefs : List KSlot)
deriving DecidableEq

def insistVatType (type : SlotType) (vref : JSString) : KM PUnit := do
  let parsed ← parsedVatSlot vref
  insist (parsed.type = type) (.invalidVref vref)

def mapVatSlots (vatID : VatID) (vrefs : List JSString) : KM (List KSlot) :=
  vrefs.mapM fun vref => mapVatSlotToKernelSlot vatID vref .standard

/-- Resolution authority for the result moves from the vat to the queue. -/
def translateSendResult (vatID : VatID) (enablePipelining : Bool) (resultSlot : JSString) :
    KM KSlot := do
  insistVatType .promise resultSlot
  let result ← mapVatSlotToKernelSlot vatID resultSlot ⟨true, false, !enablePipelining⟩
  let (decider, _, _, _) ← getUnresolvedPromise result
  insist (decider = some vatID) (.wrongDecider result decider)
  clearDecider result
  return result

/-- The serial number is stamped when the message is queued. -/
def unsentOrigin (sender : Sender) (target : KSlot) : Origin := ⟨sender, target, 0⟩

/-- An empty result string is the same as none. -/
def translateSend (vatID : VatID) (enablePipelining : Bool) (targetSlot : JSString)
    (methargs : CapData JSString) (resultSlot : Option JSString) : KM KernelSyscall := do
  let target ← mapVatSlotToKernelSlot vatID targetSlot .standard
  let kernelSlots ← mapVatSlots vatID methargs.slots
  match resultSlot with
  | none | some [] =>
    return .send target ⟨⟨methargs.body, kernelSlots⟩, none, unsentOrigin (.vat vatID) target⟩
  | some resultVref =>
    let result ← translateSendResult vatID enablePipelining resultVref
    return .send target
      ⟨⟨methargs.body, kernelSlots⟩, some result, unsentOrigin (.vat vatID) target⟩

def translateExit (vatID : VatID) (isFailure : Bool) (info : CapData JSString) :
    KM KernelSyscall := do
  let kernelSlots ← mapVatSlots vatID info.slots
  return .exit vatID isFailure ⟨info.body, kernelSlots⟩

/-- An object vref that was allocated by the vat (an export) or by the kernel
(an import), as the syscall requires. -/
def insistObject (vref : JSString) (allocatedByVat : Bool) : KM PUnit := do
  let parsed ← parsedVatSlot vref
  insist (parsed.type = .object) .assertionFailed
  insist (parsed.allocatedByVat = allocatedByVat) .assertionFailed

def translateDropImports (vatID : VatID) (vrefs : List JSString) : KM KernelSyscall := do
  let krefs ← vrefs.mapM fun vref => do
    insistObject vref false
    let kref ← mapVatSlotToKernelSlot vatID vref .gc
    clearReachableFlag vatID kref
    return kref
  return .dropImports krefs

def translateRetireImports (vatID : VatID) (vrefs : List JSString) : KM KernelSyscall := do
  let krefs ← vrefs.mapM fun vref => do
    insistObject vref false
    let kref ← mapVatSlotToKernelSlot vatID vref .gc
    let isReachable ← getReachableFlag vatID kref
    insist (isReachable = false) (.stillReachable vref)
    deleteCListEntry vatID kref vref
    return kref
  return .retireImports krefs

def translateRetireExports (vatID : VatID) (vrefs : List JSString) : KM KernelSyscall := do
  let krefs ← vrefs.mapM fun vref => do
    insistObject vref true
    let kref ← mapVatSlotToKernelSlot vatID vref .gc
    insistNotReachable vatID kref
    deleteCListEntry vatID kref vref
    return kref
  return .retireExports krefs

def translateAbandonExports (vatID : VatID) (vrefs : List JSString) : KM KernelSyscall := do
  let krefs ← vrefs.mapM fun vref => do
    insistObject vref true
    mapVatSlotToKernelSlot vatID vref .gc
  return .abandonExports vatID krefs

def translateCallNow (vatID : VatID) (target : JSString) (args : CapData JSString) :
    KM KernelSyscall := do
  let dev ← mapVatSlotToKernelSlot vatID target .standard
  insistKernelType .device dev
  args.slots.forM fun slot => do
    let parsed ← parsedVatSlot slot
    insist (parsed.type ≠ .promise) (.invalidVref slot)
  let kernelSlots ← mapVatSlots vatID args.slots
  return .invoke dev ⟨args.body, kernelSlots⟩

def translateSubscribe (vatID : VatID) (vpid : JSString) : KM KernelSyscall := do
  let kpid ← mapVatSlotToKernelSlot vatID vpid .standard
  let known ← hasKernelPromise kpid
  insist (known = true) .storageLacksRequiredKey
  return .subscribe vatID kpid

/-- A vat cannot fulfill a promise with a promise. -/
def insistNotPromise (data : CapData JSString) : KM PUnit := do
  match ← extractSingleSlot data with
  | none | some [] => pure ⟨⟩
  | some resolutionSlot =>
    let parsed ← parsedVatSlot resolutionSlot
    insist (parsed.type ≠ .promise) (.cannotResolveToPromise resolutionSlot)

def translateOneResolution (vatID : VatID) (resolution : JSString × Bool × CapData JSString) :
    KM (KSlot × Bool × CapData KSlot) := do
  let (vpid, rejected, data) := resolution
  insistVatType .promise vpid
  if rejected then pure ⟨⟩ else insistNotPromise data
  let kpid ← mapVatSlotToKernelSlot vatID vpid .standard
  let kernelSlots ← mapVatSlots vatID data.slots
  return (kpid, rejected, ⟨data.body, kernelSlots⟩)

def translateResolve (vatID : VatID) (vresolutions : List (JSString × Bool × CapData JSString)) :
    KM KernelSyscall := do
  let kresolutions ← vresolutions.mapM (translateOneResolution vatID)
  deleteCListEntriesForKernelSlots vatID (kresolutions.map (·.1))
  return .resolve vatID kresolutions

def vatSyscallToKernelSyscall (vatID : VatID) (enablePipelining : Bool) :
    VatSyscall → KM KernelSyscall
  | .send target methargs result => translateSend vatID enablePipelining target methargs result
  | .callNow target args => translateCallNow vatID target args
  | .subscribe vpid => translateSubscribe vatID vpid
  | .resolve resolutions => translateResolve vatID resolutions
  | .exit isFailure info => translateExit vatID isFailure info
  | .vatstoreGet key => return .vatstoreGet vatID key
  | .vatstoreSet key value => return .vatstoreSet vatID key value
  | .vatstoreGetNextKey priorKey => return .vatstoreGetNextKey vatID priorKey
  | .vatstoreDelete key => return .vatstoreDelete vatID key
  | .dropImports vrefs => translateDropImports vatID vrefs
  | .retireImports vrefs => translateRetireImports vatID vrefs
  | .retireExports vrefs => translateRetireExports vatID vrefs
  | .abandonExports vrefs => translateAbandonExports vatID vrefs

end Syscalls

end AgoricSdk.SwingSet
