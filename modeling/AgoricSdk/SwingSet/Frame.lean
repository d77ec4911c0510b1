import AgoricSdk.SwingSet.Kernel

/-!
What most of the kernel leaves alone: the savepoints, the workers, the lists of
vats and their options, and the requests of the delivery in progress. Only the
code that starts, stops, creates or terminates vats and the code that ends a
crank goes beyond this frame.
-/

namespace AgoricSdk.SwingSet

open StateProgram

-- A program of many steps needs a deep search.
set_option synthInstance.maxSize 2000

structure ProcessView where
  terminatedVats : List VatID
  vatsTerminated : List VatID
  savedStart : Option KVStore
  savedDeliver : Option KVStore
  online : Table VatID VatOptions
  stopping : List VatID
  vatRequestedTermination : Option (Bool × TerminationInfo)
  illegalSyscall : Bool
  dynamicIDs : List VatID
  vatNames : List (JSString × VatID)
  vatNextID : Nat
  vatOptions : Table VatID VatOptions
  currentSpans : List VatID
  vatAdminRootKref : Option KSlot
  kernelStats : Stats
  initialized : VatID → Bool

@[reducible] def KernelState.process (s : KernelState) : ProcessView where
  terminatedVats := s.terminatedVats
  vatsTerminated := s.store.vatsTerminated
  savedStart := s.savedStart
  savedDeliver := s.savedDeliver
  online := s.online
  stopping := s.stopping
  vatRequestedTermination := s.vatRequestedTermination
  illegalSyscall := s.illegalSyscall
  dynamicIDs := s.store.dynamicIDs
  vatNames := s.store.vatNames
  vatNextID := s.store.vatNextID
  vatOptions := s.store.vatOptions
  currentSpans := s.store.currentSpans
  vatAdminRootKref := s.store.vatAdminRootKref
  kernelStats := s.store.kernelStats
  initialized := s.store.oNextID.has

/-- The states differ in what bookkeeping changes only. -/
def SameProcess (s t : KernelState) : Prop := t.process = s.process

instance : IsPreorder KernelState SameProcess where
  refl _ := rfl
  trans _ _ _ h h' := h'.trans h

instance {f : KernelState → KernelState} [h : Same (fun s => (f s).process) KernelState.process] :
    Moves SameProcess (modify f : KM PUnit) :=
  moves_modify fun s => congrFun h.eq s

instance {f : KVStore → KVStore}
    [h : Same (fun s : KernelState => KernelState.process { s with store := f s.store })
      KernelState.process] :
    Moves SameProcess (modifyStore f) :=
  moves_modify fun s => congrFun h.eq s

section Access

variable {R : KernelState → KernelState → Prop} [IsPreorder KernelState R]

instance : Moves R getStore := by unfold getStore; infer_instance

instance (c : Prop) [Decidable c] (fault : Fault) : Moves R (insist c fault) := by
  unfold insist; infer_instance

instance (type : SlotType) (kref : KSlot) : Moves R (insistKernelType type kref) := by
  unfold insistKernelType; infer_instance

instance {α : Type} (value : Option α) (fault : Fault) : Moves R (required value fault) := by
  unfold required; split <;> infer_instance

end Access

section KernelKeeper

instance (gauge : Gauge) (delta : Nat) : Moves SameProcess (incStat gauge delta) := by
  unfold incStat; infer_instance

instance (gauge : Gauge) (delta : Nat) : Moves SameProcess (decStat gauge delta) := by
  unfold decStat; infer_instance

instance (event : RunQueueEvent) : Moves SameProcess (addToRunQueue event) := by
  unfold addToRunQueue; infer_instance

instance (event : RunQueueEvent) : Moves SameProcess (addToAcceptanceQueue event) := by
  unfold addToAcceptanceQueue; infer_instance

instance : Moves SameProcess getNextRunQueueMsg := by
  unfold getNextRunQueueMsg
  refine moves_seq inferInstance fun _ => ?_
  split <;> infer_instance

instance : Moves SameProcess getNextAcceptanceQueueMsg := by
  unfold getNextAcceptanceQueueMsg
  refine moves_seq inferInstance fun _ => ?_
  split <;> infer_instance

instance (vatID : VatID) : Moves SameProcess (scheduleReap vatID) := by
  refine moves_modify fun s => ?_
  dsimp only
  split <;> rfl

instance : Moves SameProcess nextReapAction := by
  unfold nextReapAction
  refine moves_seq inferInstance fun _ => ?_
  split <;> infer_instance

instance (actions : List GcAction) : Moves SameProcess (setGCActions actions) := by
  unfold setGCActions; infer_instance

instance (actions : List GcAction) : Moves SameProcess (addGCActions actions) := by
  unfold addGCActions; infer_instance

instance (kref : KSlot) : Moves SameProcess (getObjectRefCount kref) := by
  unfold getObjectRefCount
  refine moves_seq inferInstance fun _ => ?_
  split <;> infer_instance

instance (kref : KSlot) (reachable recognizable : Int) :
    Moves SameProcess (setObjectRefCount kref reachable recognizable) := by
  unfold setObjectRefCount; infer_instance

instance (kref : KSlot) : Moves SameProcess (addMaybeFreeKref kref) := by
  unfold addMaybeFreeKref; infer_instance

instance (kpid : KSlot) (refCount : Nat) :
    Moves SameProcess (setPromiseRefCount kpid refCount) := by
  refine moves_modify fun s => ?_
  dsimp only
  split <;> rfl

instance (kref : KSlot) (options : RefOptions) :
    Moves SameProcess (incrementRefCount kref options) := by
  unfold incrementRefCount
  split <;> infer_instance

instance (kref : KSlot) : Moves SameProcess (kernelObjectExists kref) := by
  unfold kernelObjectExists; infer_instance

instance (kref : KSlot) (options : RefOptions) :
    Moves SameProcess (decrementRefCount kref options) := by
  unfold decrementRefCount
  split <;> infer_instance

instance (slots : List KSlot) : Moves SameProcess (incrementSlots slots) := by
  unfold incrementSlots; infer_instance

instance (slots : List KSlot) : Moves SameProcess (decrementSlots slots) := by
  unfold decrementSlots; infer_instance

instance (ownerID : VatID) : Moves SameProcess (addKernelObject ownerID) := by
  unfold addKernelObject; infer_instance

instance (kref : KSlot) : Moves SameProcess (ownerOfKernelObject kref) := by
  unfold ownerOfKernelObject
  refine moves_seq inferInstance fun _ => ?_
  refine moves_seq inferInstance fun _ => ?_
  split <;> infer_instance

instance (kref : KSlot) : Moves SameProcess (deleteKernelObject kref) := by
  unfold deleteKernelObject; infer_instance

instance (vatID : VatID) (kref : KSlot) :
    Moves SameProcess (getReachableAndVatSlot vatID kref) := by
  unfold getReachableAndVatSlot; infer_instance

instance (vatID : VatID) (kref : KSlot) (vref : JSString) :
    Moves SameProcess (eraseCListPair vatID kref vref) := by
  unfold eraseCListPair; infer_instance

instance (kref : KSlot) (oldVat : VatID) : Moves SameProcess (orphanKernelObject kref oldVat) := by
  unfold orphanKernelObject; infer_instance

instance (deviceID : DeviceID) : Moves SameProcess (addKernelDeviceNode deviceID) := by
  unfold addKernelDeviceNode; infer_instance

instance (kref : KSlot) : Moves SameProcess (ownerOfKernelDevice kref) := by
  unfold ownerOfKernelDevice; infer_instance

instance (policy : ResolutionPolicy) : Moves SameProcess (addKernelPromise policy) := by
  unfold addKernelPromise; infer_instance

instance (kpid : KSlot) : Moves SameProcess (hasKernelPromise kpid) := by
  unfold hasKernelPromise; infer_instance

instance (kpid : KSlot) : Moves SameProcess (getKernelPromise kpid) := by
  unfold getKernelPromise; infer_instance

instance (kpid : KSlot) (state : PromiseState) :
    Moves SameProcess (setPromiseState kpid state) := by
  refine moves_modify fun s => ?_
  dsimp only
  split <;> rfl

instance (kpid : KSlot) : Moves SameProcess (getUnresolvedPromise kpid) := by
  unfold getUnresolvedPromise
  refine moves_seq inferInstance fun _ => ?_
  split <;> infer_instance

instance (deciderVatID : VatID) : Moves SameProcess (addKernelPromiseForVat deciderVatID) := by
  unfold addKernelPromiseForVat; infer_instance

instance (kpid : KSlot) (expectedDecider : Option VatID) :
    Moves SameProcess (getResolveablePromise kpid expectedDecider) := by
  unfold getResolveablePromise; infer_instance

instance (kpid : KSlot) : Moves SameProcess (deleteKernelPromise kpid) := by
  unfold deleteKernelPromise; infer_instance

instance (kpid : KSlot) : Moves SameProcess (requeueKernelPromise kpid) := by
  unfold requeueKernelPromise; infer_instance

instance (kpid : KSlot) (rejected : Bool) (data : CapData KSlot) :
    Moves SameProcess (resolveKernelPromise kpid rejected data) := by
  unfold resolveKernelPromise; infer_instance

instance (kpid : KSlot) (msg : Message) :
    Moves SameProcess (addMessageToPromiseQueue kpid msg) := by
  unfold addMessageToPromiseQueue; infer_instance

instance (kpid : KSlot) (newDecider : VatID) : Moves SameProcess (setDecider kpid newDecider) := by
  unfold setDecider; infer_instance

instance (kpid : KSlot) : Moves SameProcess (clearDecider kpid) := by
  unfold clearDecider; infer_instance

instance (kpid : KSlot) (vatID : VatID) :
    Moves SameProcess (addSubscriberToPromise kpid vatID) := by
  unfold addSubscriberToPromise; infer_instance

instance (remaining : Option Nat) (threshold : Nat) :
    Moves SameProcess (allocateMeter remaining threshold) := by
  unfold allocateMeter; infer_instance

instance (meterID : MeterID) : Moves SameProcess (getMeter meterID) := by
  unfold getMeter; infer_instance

instance (meterID : MeterID) (delta : Nat) :
    Moves SameProcess (addMeterRemaining meterID delta) := by
  unfold addMeterRemaining; infer_instance

instance (meterID : MeterID) (threshold : Nat) :
    Moves SameProcess (setMeterThreshold meterID threshold) := by
  refine moves_modify fun s => ?_
  dsimp only
  split <;> rfl

instance (meterID : MeterID) (spent : Nat) : Moves SameProcess (checkMeter meterID spent) := by
  unfold checkMeter
  refine moves_seq inferInstance fun _ => ?_
  split <;> infer_instance

instance (meterID : MeterID) (spent : Nat) : Moves SameProcess (deductMeter meterID spent) := by
  unfold deductMeter
  refine moves_seq inferInstance fun _ => ?_
  split <;> infer_instance

instance : Moves SameProcess allocateUpgradeID := by
  unfold allocateUpgradeID; infer_instance

instance : Moves SameProcess getStaticVats := by
  unfold getStaticVats; infer_instance

instance (allowCleanup : AllowCleanup) :
    Moves SameProcess (nextCleanupTerminatedVatAction allowCleanup) := by
  unfold nextCleanupTerminatedVatAction
  refine moves_seq inferInstance fun _ => ?_
  split <;> infer_instance

instance (vatID : VatID) : Moves SameProcess (provideVatKeeper vatID) := by
  unfold provideVatKeeper; infer_instance

instance (vatID : VatID) : Moves SameProcess (evictVatKeeper vatID) := by
  unfold evictVatKeeper; infer_instance

instance (vatID : VatID) : Moves SameProcess (vatIsAlive vatID) := by
  unfold vatIsAlive; infer_instance

end KernelKeeper

section VatKeeper

instance (vatID : VatID) : Moves SameProcess (insistCurrentSpan vatID) := by
  unfold insistCurrentSpan; infer_instance

instance (vatID : VatID) : Moves SameProcess (getOptions vatID) := by
  unfold getOptions; infer_instance

instance (vatID : VatID) (newVPCD : CapData KSlot) :
    Moves SameProcess (setVatParameters vatID newVPCD) := by
  unfold setVatParameters
  refine moves_seq inferInstance fun _ => moves_seq inferInstance fun _ => ?_
  split <;> infer_instance

instance (vatID : VatID) : Moves SameProcess (clearReapDirt vatID) := by
  unfold clearReapDirt; infer_instance

instance (vatID : VatID) (moreDirt : MoreDirt) : Moves SameProcess (addDirt vatID moreDirt) := by
  unfold addDirt; infer_instance

instance (vref : JSString) : Moves SameProcess (parsedVatSlot vref) := by
  unfold parsedVatSlot; infer_instance

instance (vatID : VatID) (kref : KSlot) : Moves SameProcess (getReachableFlag vatID kref) := by
  unfold getReachableFlag; infer_instance

instance (vatID : VatID) (kref : KSlot) : Moves SameProcess (insistNotReachable vatID kref) := by
  unfold insistNotReachable; infer_instance

instance (vatID : VatID) (kref : KSlot) (flag : Bool) (vref : JSString) :
    Moves SameProcess (writeReachableFlag vatID kref flag vref) := by
  unfold writeReachableFlag; infer_instance

instance (vatID : VatID) (kref : KSlot) : Moves SameProcess (setReachableFlag vatID kref) := by
  unfold setReachableFlag; infer_instance

instance (vatID : VatID) (kref : KSlot) : Moves SameProcess (clearReachableFlag vatID kref) := by
  unfold clearReachableFlag; infer_instance

instance (vatID : VatID) (kref : KSlot) : Moves SameProcess (importsKernelSlot vatID kref) := by
  unfold importsKernelSlot
  refine moves_seq inferInstance fun _ => ?_
  split <;> infer_instance

instance (vatID : VatID) (kref : KSlot) : Moves SameProcess (hasCListEntry vatID kref) := by
  unfold hasCListEntry; infer_instance

instance (vatID : VatID) (vref : JSString) (type : SlotType) :
    Moves SameProcess (exportVatSlot vatID vref type) := by
  unfold exportVatSlot
  cases type <;> infer_instance

instance (vatID : VatID) (vref : JSString) (options : MapOptions) :
    Moves SameProcess (mapVatSlotToKernelSlot vatID vref options) := by
  unfold mapVatSlotToKernelSlot
  dsimp only
  infer_instance

instance (vatID : VatID) (type : SlotType) : Moves SameProcess (nextVatSlotID vatID type) := by
  cases type with
  | object =>
    refine moves_of_wp fun s => ?_
    simp only [nextVatSlotID, getStore, required, modifyStore, wp_bind, wp_get, wp_pure]
    cases h : s.store.oNextID.lookup vatID with
    | none => exact refl_of SameProcess s
    | some id =>
      exact congrArg (fun i => { s.process with initialized := i }) (funext (Table.has_insert_of_lookup h _))
  | device => unfold nextVatSlotID; infer_instance
  | promise => unfold nextVatSlotID; infer_instance

instance (vatID : VatID) (kref : KSlot) : Moves SameProcess (importKernelSlot vatID kref) := by
  unfold importKernelSlot; infer_instance

instance (vatID : VatID) (kref : KSlot) (options : MapOptions) :
    Moves SameProcess (mapKernelSlotToVatSlot vatID kref options) := by
  unfold mapKernelSlotToVatSlot
  dsimp only
  infer_instance

instance (vatID : VatID) (kref : KSlot) (vref : JSString) :
    Moves SameProcess (deleteCListEntry vatID kref vref) := by
  unfold deleteCListEntry; infer_instance

instance (vatID : VatID) (krefs : List KSlot) :
    Moves SameProcess (deleteCListEntriesForKernelSlots vatID krefs) := by
  unfold deleteCListEntriesForKernelSlots; infer_instance

end VatKeeper

section Refcounts

instance (kref : KSlot) : Moves SameProcess (getImporters kref) := by
  unfold getImporters
  dsimp only
  infer_instance

instance (krefs : List KSlot) : Moves SameProcess (retireKernelObjects krefs) := by
  unfold retireKernelObjects; infer_instance

instance (kpid : KSlot) : Moves SameProcess (processPromiseRefcount kpid) := by
  unfold processPromiseRefcount
  refine moves_seq inferInstance fun known => ?_
  split
  · refine moves_seq inferInstance fun p => ?_
    split
    · dsimp only
      split <;> infer_instance
    · infer_instance
  · infer_instance

instance (kref : KSlot) : Moves SameProcess (processObjectRefcount kref) := by
  unfold processObjectRefcount
  refine moves_seq inferInstance fun counts => ?_
  split
  · refine moves_seq inferInstance fun st => ?_
    dsimp only
    split <;> infer_instance
  · infer_instance

instance (fuel i : Nat) (actions : List GcAction) :
    Moves SameProcess (visitMaybeFree fuel i actions) := by
  induction fuel generalizing i actions with
  | zero => unfold visitMaybeFree; infer_instance
  | succ fuel ih =>
    unfold visitMaybeFree
    refine moves_seq inferInstance fun s => ?_
    split
    · infer_instance
    · split <;> infer_instance

instance : Moves SameProcess processRefcounts := by
  unfold processRefcounts; infer_instance

instance (action : GcAction) : Moves SameProcess (shouldProcessAction action) := by
  unfold shouldProcessAction
  refine moves_seq inferInstance fun hasCList => ?_
  dsimp only
  cases action.type <;> infer_instance

instance (actions : List GcAction) : Moves SameProcess (filterKrefs actions) := by
  induction actions with
  | nil => unfold filterKrefs; infer_instance
  | cons action rest ih => unfold filterKrefs; infer_instance

instance (groups : List (VatID × GcActionType)) (remaining : List GcAction) :
    Moves SameProcess (takeGcGroups groups remaining) := by
  induction groups generalizing remaining with
  | nil => unfold takeGcGroups; infer_instance
  | cons group groups ih => unfold takeGcGroups; infer_instance

instance : Moves SameProcess processGCActionSet := by
  unfold processGCActionSet; infer_instance

theorem sameProcess_forPromisesByDecider {vatID : VatID} {body : KSlot → KernelPromise → KM PUnit}
    (h : ∀ kpid p, Moves SameProcess (body kpid p)) :
    Moves SameProcess (forPromisesByDecider vatID body) := by
  unfold forPromisesByDecider
  refine moves_seq inferInstance fun _ => @moves_forM _ _ _ _ _ _ (fun vref => ?_) _
  refine moves_seq inferInstance fun _ => ?_
  split <;> infer_instance

instance (vatID : VatID) : Moves SameProcess (enumerateNonDurableObjectExports vatID) := by
  unfold enumerateNonDurableObjectExports; infer_instance

end Refcounts

section Translators

instance {σ : Type} (data : CapData σ) : Moves SameProcess (extractSingleSlot data) := by
  unfold extractSingleSlot
  split
  · infer_instance
  · split <;> infer_instance
  · infer_instance

instance {σ : Type} (part : Body) (slots : List σ) :
    Moves SameProcess (reserialize part slots) := by
  unfold reserialize
  split
  · infer_instance
  · split <;> infer_instance
  · split <;> infer_instance

instance (vatID : VatID) (slots : List KSlot) : Moves SameProcess (translateSlots vatID slots) := by
  unfold translateSlots; infer_instance

instance (vatID : VatID) (target : KSlot) : Moves SameProcess (translateTarget vatID target) := by
  unfold translateTarget
  refine moves_seq inferInstance fun _ => moves_seq inferInstance fun parsed => ?_
  cases parsed.type <;> infer_instance

instance (vatID : VatID) (result : KSlot) : Moves SameProcess (translateResult vatID result) := by
  unfold translateResult; infer_instance

instance (vatID : VatID) (target : KSlot) (msg : Message) :
    Moves SameProcess (translateMessage vatID target msg) := by
  unfold translateMessage
  refine moves_seq inferInstance fun _ => ?_
  refine moves_seq inferInstance fun _ => ?_
  split <;> infer_instance

instance (vatID : VatID) (resolution : KSlot × PromiseState) :
    Moves SameProcess (translateResolution vatID resolution) := by
  unfold translateResolution
  dsimp only
  split <;> infer_instance

instance (vatID : VatID) (krefs : List KSlot) :
    Moves SameProcess (translateDropExports vatID krefs) := by
  unfold translateDropExports; infer_instance

instance (type : GcActionType) (vatID : VatID) (krefs : List KSlot) :
    Moves SameProcess (translateRetire type vatID krefs) := by
  unfold translateRetire; infer_instance

instance (vatID : VatID) (kd : KernelDelivery) :
    Moves SameProcess (kernelDeliveryToVatDelivery vatID kd) := by
  unfold kernelDeliveryToVatDelivery
  split <;> infer_instance

instance (type : SlotType) (vref : JSString) : Moves SameProcess (insistVatType type vref) := by
  unfold insistVatType; infer_instance

instance (vatID : VatID) (vrefs : List JSString) : Moves SameProcess (mapVatSlots vatID vrefs) := by
  unfold mapVatSlots; infer_instance

instance (vatID : VatID) (enablePipelining : Bool) (resultSlot : JSString) :
    Moves SameProcess (translateSendResult vatID enablePipelining resultSlot) := by
  unfold translateSendResult; infer_instance

instance (vatID : VatID) (enablePipelining : Bool) (targetSlot : JSString)
    (methargs : CapData JSString) (resultSlot : Option JSString) :
    Moves SameProcess (translateSend vatID enablePipelining targetSlot methargs resultSlot) := by
  unfold translateSend
  refine moves_seq inferInstance fun _ => ?_
  refine moves_seq inferInstance fun _ => ?_
  split <;> infer_instance

instance (vatID : VatID) (isFailure : Bool) (info : CapData JSString) :
    Moves SameProcess (translateExit vatID isFailure info) := by
  unfold translateExit; infer_instance

instance (vref : JSString) (allocatedByVat : Bool) :
    Moves SameProcess (insistObject vref allocatedByVat) := by
  unfold insistObject; infer_instance

instance (vatID : VatID) (vrefs : List JSString) :
    Moves SameProcess (translateDropImports vatID vrefs) := by
  unfold translateDropImports; infer_instance

instance (vatID : VatID) (vrefs : List JSString) :
    Moves SameProcess (translateRetireImports vatID vrefs) := by
  unfold translateRetireImports; infer_instance

instance (vatID : VatID) (vrefs : List JSString) :
    Moves SameProcess (translateRetireExports vatID vrefs) := by
  unfold translateRetireExports; infer_instance

instance (vatID : VatID) (vrefs : List JSString) :
    Moves SameProcess (translateAbandonExports vatID vrefs) := by
  unfold translateAbandonExports; infer_instance

instance (vatID : VatID) (target : JSString) (args : CapData JSString) :
    Moves SameProcess (translateCallNow vatID target args) := by
  unfold translateCallNow; infer_instance

instance (vatID : VatID) (vpid : JSString) : Moves SameProcess (translateSubscribe vatID vpid) := by
  unfold translateSubscribe; infer_instance

instance (data : CapData JSString) : Moves SameProcess (insistNotPromise data) := by
  unfold insistNotPromise
  refine moves_seq inferInstance fun _ => ?_
  split <;> infer_instance

instance (vatID : VatID) (resolution : JSString × Bool × CapData JSString) :
    Moves SameProcess (translateOneResolution vatID resolution) := by
  unfold translateOneResolution
  dsimp only
  infer_instance

instance (vatID : VatID) (vresolutions : List (JSString × Bool × CapData JSString)) :
    Moves SameProcess (translateResolve vatID vresolutions) := by
  unfold translateResolve; infer_instance

instance (vatID : VatID) (enablePipelining : Bool) (vso : VatSyscall) :
    Moves SameProcess (vatSyscallToKernelSyscall vatID enablePipelining vso) := by
  unfold vatSyscallToKernelSyscall
  split <;> infer_instance

end Translators

section Queue

instance (fault : Fault) : Moves SameProcess (panic fault) := by
  unfold panic; infer_instance

instance (vatID : VatID) (kpid : KSlot) : Moves SameProcess (notify vatID kpid) := by
  unfold notify; infer_instance

instance (vatID : VatID) (kpid : KSlot) : Moves SameProcess (doSubscribe vatID kpid) := by
  unfold doSubscribe
  refine moves_seq inferInstance fun _ => ?_
  split <;> infer_instance

instance (decider : Option VatID) (kpid : KSlot) (rejected : Bool) (data : CapData KSlot) :
    Moves SameProcess (doResolveOne decider kpid rejected data) := by
  unfold doResolveOne; infer_instance

instance (decider : Option VatID) (resolutions : List (KSlot × Bool × CapData KSlot)) :
    Moves SameProcess (doResolve decider resolutions) := by
  unfold doResolve; infer_instance

instance (kpid : KSlot) (errorData : CapData KSlot) (expectedDecider : Option VatID) :
    Moves SameProcess (resolveToError kpid errorData expectedDecider) := by
  unfold resolveToError; infer_instance

instance (target : KSlot) (msg : Message) : Moves SameProcess (stampMessage target msg) := by
  unfold stampMessage; infer_instance

instance (result : Option KSlot) : Moves SameProcess (incrementResult result) := by
  unfold incrementResult
  split <;> infer_instance

instance (target : KSlot) (msg : Message) : Moves SameProcess (doSend target msg) := by
  unfold doSend; infer_instance

instance (kref : KSlot) (methargs : CapData KSlot) (policy : ResolutionPolicy) :
    Moves SameProcess (queueToKref kref methargs policy) := by
  unfold queueToKref; infer_instance

instance (vatAdminRootKref : KSlot) (info : CapData KSlot) :
    Moves SameProcess (notifyTermination vatAdminRootKref info) := by
  unfold notifyTermination; infer_instance

instance (vatID : VatID) : Moves SameProcess (lookup vatID) := by
  unfold lookup
  refine moves_seq inferInstance fun _ => ?_
  split <;> infer_instance

instance (vatID : VatID) (kd : KernelDelivery) :
    Moves SameProcess (translateDelivery vatID kd) := by
  unfold translateDelivery; infer_instance

end Queue

section Devices

instance (deviceID : DeviceID) (kref : KSlot) (nextID : Nat) :
    Moves SameProcess (addDeviceImport deviceID kref nextID) := by
  unfold addDeviceImport; infer_instance

instance (deviceID : DeviceID) (type : SlotType) :
    Moves SameProcess (nextDeviceSlotID deviceID type) := by
  cases type <;> unfold nextDeviceSlotID <;> infer_instance

instance (deviceID : DeviceID) (kref : KSlot) :
    Moves SameProcess (mapKernelSlotToDeviceSlot deviceID kref) := by
  unfold mapKernelSlotToDeviceSlot
  dsimp only
  infer_instance

instance (deviceID : DeviceID) (dref : JSString) :
    Moves SameProcess (mapDeviceSlotToKernelSlot deviceID dref) := by
  unfold mapDeviceSlotToKernelSlot
  dsimp only
  infer_instance

instance (deviceID : DeviceID) (drefs : List JSString) :
    Moves SameProcess (mapDeviceSlots deviceID drefs) := by
  unfold mapDeviceSlots; infer_instance

instance (deviceID : DeviceID) (targetSlot : JSString) (methargs : CapData JSString) :
    Moves SameProcess (translateSendOnly deviceID targetSlot methargs) := by
  unfold translateSendOnly; infer_instance

instance (deviceID : DeviceID) : Moves SameProcess (insistVatAdminDevice deviceID) := by
  unfold insistVatAdminDevice; infer_instance

instance (vatID : VatID) (key : JSString) : Moves SameProcess (vatstoreGet vatID key) := by
  unfold vatstoreGet; infer_instance

instance (vatID : VatID) (key value : JSString) :
    Moves SameProcess (vatstoreSet vatID key value) := by
  unfold vatstoreSet; infer_instance

instance (vatID : VatID) (priorKey : JSString) :
    Moves SameProcess (vatstoreGetNextKey vatID priorKey) := by
  unfold vatstoreGetNextKey; infer_instance

instance (vatID : VatID) (key : JSString) : Moves SameProcess (vatstoreDelete vatID key) := by
  unfold vatstoreDelete; infer_instance

instance (vatID : VatID) (kres : SyscallResult) :
    Moves SameProcess (translateSyscallResult vatID kres) := by
  unfold translateSyscallResult
  split <;> infer_instance

end Devices

section Cranks

instance (msg : Message) (outcome : Outcome) : Moves SameProcess (recordOutcome msg outcome) := by
  unfold recordOutcome; infer_instance

instance (msg : Message) (error : CapData KSlot) : Moves SameProcess (splat msg error) := by
  unfold splat
  split <;> infer_instance

instance (msg : Message) (targetObject : KSlot) :
    Moves SameProcess (routeToObject msg targetObject) := by
  unfold routeToObject
  refine moves_seq inferInstance fun _ => ?_
  split <;> infer_instance

instance (msg : Message) (target : KSlot) (decider : Option VatID) :
    Moves SameProcess (routeToUnresolved msg target decider) := by
  unfold routeToUnresolved
  split
  · infer_instance
  · refine moves_seq inferInstance fun _ => ?_
    split <;> infer_instance

instance (target : KSlot) (msg : Message) : Moves SameProcess (routeSendEvent target msg) := by
  unfold routeSendEvent
  split
  · infer_instance
  · infer_instance
  · refine moves_seq inferInstance fun _ => ?_
    split
    · refine moves_seq inferInstance fun _ => ?_
      split <;> infer_instance
    · infer_instance
    · infer_instance

instance (result : Option KSlot) : Moves SameProcess (decrementResult result) := by
  unfold decrementResult
  split <;> infer_instance

instance (target : KSlot) (msg : Message) :
    Moves SameProcess (decrementSendEventRefCount target msg) := by
  unfold decrementSendEventRefCount; infer_instance

instance (target newTarget : KSlot) : Moves SameProcess (retarget target newTarget) := by
  unfold retarget; infer_instance

instance (message : RunQueueEvent) : Moves SameProcess (processAcceptanceMessage message) := by
  unfold processAcceptanceMessage
  split
  · refine moves_seq inferInstance fun _ => ?_
    split <;> infer_instance
  · infer_instance

instance (fuel : Nat) (seen stack : List KSlot) :
    Moves SameProcess (scanKernelPromises fuel seen stack) := by
  induction fuel generalizing seen stack with
  | zero => unfold scanKernelPromises; infer_instance
  | succ fuel ih =>
    cases stack with
    | nil => unfold scanKernelPromises; infer_instance
    | cons slot stack =>
      unfold scanKernelPromises
      split
      · refine moves_seq inferInstance fun _ => ?_
        split <;> infer_instance
      · infer_instance

instance (rootKPID : KSlot) (rootSlots : List KSlot) :
    Moves SameProcess (getKpidsToRetire rootKPID rootSlots) := by
  unfold getKpidsToRetire; infer_instance

instance (kpid : KSlot) : Moves SameProcess (settledPromise kpid) := by
  unfold settledPromise
  refine moves_seq inferInstance fun _ => ?_
  split <;> infer_instance

instance (meterID : Option MeterID) (computrons : Option Nat) :
    Moves SameProcess (meterUnderrun meterID computrons) := by
  unfold meterUnderrun
  split <;> infer_instance

instance (vatID : VatID) (report : DeliveryReport) (measureDirt : Bool)
    (meterID : Option MeterID) (gcKrefs : Nat) :
    Moves SameProcess (deliveryCrankResults vatID report measureDirt meterID gcKrefs) := by
  unfold deliveryCrankResults; infer_instance

instance (vatID : VatID) : Moves SameProcess (exportRootObject vatID) := by
  unfold exportRootObject; infer_instance

instance (vatID : VatID) (results : CrankResults) :
    Moves SameProcess (reportNewVat vatID results) := by
  unfold reportNewVat; infer_instance

instance (vatID : VatID) : Moves SameProcess (disconnectPromises vatID) := by
  unfold disconnectPromises
  exact sameProcess_forPromisesByDecider fun _ _ => inferInstance

instance : Moves SameProcess notifyMeterThreshold := by
  unfold notifyMeterThreshold; infer_instance

instance (results : CrankResults) : Moves SameProcess (settleMeter results) := by
  unfold settleMeter
  split <;> infer_instance

instance (results : CrankResults) : Moves SameProcess (settleDirt results) := by
  unfold settleDirt
  split <;> infer_instance

instance (results : CrankResults) : Moves SameProcess (settleVatAdmin results) := by
  unfold settleVatAdmin
  split <;> infer_instance

instance (allowCleanup : AllowCleanup) :
    Moves SameProcess (getNextMessageAndProcessor allowCleanup) := by
  unfold getNextMessageAndProcessor
  refine moves_seq inferInstance fun _ => ?_
  split
  · infer_instance
  refine moves_seq inferInstance fun _ => ?_
  split
  · infer_instance
  refine moves_seq inferInstance fun _ => ?_
  split
  · infer_instance
  refine moves_seq inferInstance fun _ => ?_
  split
  · infer_instance
  refine moves_seq inferInstance fun _ => ?_
  split <;> infer_instance

end Cranks

section Savepoints

/-- The database at a savepoint. -/
def KernelState.savedAt (s : KernelState) : Savepoint → Option KVStore
  | .start => s.savedStart
  | .deliver => s.savedDeliver

/-- The state after going back to a savepoint. -/
def KernelState.rolledBack (s : KernelState) (savepoint : Savepoint) (saved : KVStore) :
    KernelState :=
  { s with
    store := saved
    savedDeliver := if savepoint = .start then none else s.savedDeliver
    stats := saved.kernelStats }

theorem rollbackCrank_of_saved {s : KernelState} {savepoint : Savepoint} {saved : KVStore}
    (h : s.savedAt savepoint = some saved) :
    rollbackCrank savepoint s = .ok ⟨⟩ (s.rolledBack savepoint saved) := by
  cases savepoint with
  | start =>
    change s.savedStart = some saved at h
    change (required s.savedStart .assertionFailed >>= fun saved => _) s = _
    rw [h]
    rfl
  | deliver =>
    change s.savedDeliver = some saved at h
    change (required s.savedDeliver .assertionFailed >>= fun saved => _) s = _
    rw [h]
    rfl

theorem rollbackCrank_of_not_saved {s : KernelState} {savepoint : Savepoint}
    (h : s.savedAt savepoint = none) :
    rollbackCrank savepoint s = .error .assertionFailed s := by
  cases savepoint with
  | start =>
    change s.savedStart = none at h
    change (required s.savedStart .assertionFailed >>= fun saved => _) s = _
    rw [h]
    rfl
  | deliver =>
    change s.savedDeliver = none at h
    change (required s.savedDeliver .assertionFailed >>= fun saved => _) s = _
    rw [h]
    rfl

end Savepoints

end AgoricSdk.SwingSet
