import AgoricSdk.SwingSet.VatKeeper

/-!
Operations of the kernel keeper that look into c-lists: retiring objects,
processing the references that may have become free, choosing garbage
collection actions, cleaning up after a terminated vat, and the enumerations
used at termination and upgrade.
-/

namespace AgoricSdk.SwingSet

section Retirement

def getImporters (kref : KSlot) : KM (List VatID) := do
  let doesImport (vatID : VatID) : KM (Option VatID) := do
    provideVatKeeper vatID
    if ← importsKernelSlot vatID kref then return some vatID else return none
  let dynamic ← (← getStore).dynamicIDs.mapM doesImport
  let static ← (← getStaticVats).mapM doesImport
  return sortBy vatIDKey (dynamic ++ static).reduceOption

def retireKernelObjects (krefs : List KSlot) : KM PUnit := do
  let newActions ← krefs.mapM fun kref => do
    let importers ← getImporters kref
    deleteKernelObject kref
    return importers.map fun vatID => (⟨vatID, .retireImport, kref⟩ : GcAction)
  addGCActions newActions.flatten

end Retirement

section ProcessRefcounts

/-- Delete a settled promise that nothing refers to, and its references. -/
def processPromiseRefcount (kpid : KSlot) : KM PUnit := do
  if ← hasKernelPromise kpid then
    let p ← getKernelPromise kpid
    if p.refCount = 0 then
      match p.state with
      | .unresolved .. => pure ⟨⟩
      | .fulfilled data => decrementSlots data.slots
      | .rejected data => decrementSlots data.slots
      deleteKernelPromise kpid
    else pure ⟨⟩
  else pure ⟨⟩

/-- The garbage collection actions an unreachable object calls for. -/
def processObjectRefcount (kref : KSlot) : KM (List GcAction) := do
  let counts ← getObjectRefCount kref
  if counts.reachable = 0 then
    let owner := (← getStore).owner.lookup kref
    match owner with
    | some ownerVatID =>
      if ownerVatID ∈ (← get).terminatedVats then
        -- the abandonment that slow deletion would have done, brought forward
        let (_, vref) ← getReachableAndVatSlot ownerVatID kref
        modifyStore fun st => { st with owner := st.owner.erase kref }
        eraseCListPair ownerVatID kref vref
        if counts.recognizable = 0 then deleteKernelObject kref else retireKernelObjects [kref]
        return []
      else
        provideVatKeeper ownerVatID
        let vatConsidersReachable ← getReachableFlag ownerVatID kref
        let drops := if vatConsidersReachable then [⟨ownerVatID, .dropExport, kref⟩] else []
        let retires := if counts.recognizable = 0 then [⟨ownerVatID, .retireExport, kref⟩] else []
        return drops ++ retires
    | none =>
      if counts.recognizable = 0 then deleteKernelObject kref else retireKernelObjects [kref]
      return []
  else return []

/-- Visit the set from position `i` on; a visit may make the set grow. -/
def visitMaybeFree : Nat → Nat → List GcAction → KM (List GcAction)
  | 0, _, actions => return actions
  | fuel + 1, i, actions => do
    match (← get).maybeFreeKrefs[i]? with
    | none => return actions
    | some kref =>
      match kref.type with
      | .promise =>
        processPromiseRefcount kref
        visitMaybeFree fuel (i + 1) actions
      | .object =>
        let more ← processObjectRefcount kref
        visitMaybeFree fuel (i + 1) (more.foldl addIfMissing actions)
      | .device => visitMaybeFree fuel (i + 1) actions

def PromiseState.slots : PromiseState → List KSlot
  | .unresolved .. => []
  | .fulfilled data => data.slots
  | .rejected data => data.slots

/-- More visits than the set can ever need: each slot of each settled promise
joins it at most once. -/
def refcountFuel (s : KernelState) : Nat :=
  s.maybeFreeKrefs.length + s.store.promises.sumOver (fun _ p => p.state.slots.length) + 1

def processRefcounts : KM PUnit := do
  let s ← get
  let actions ← visitMaybeFree (refcountFuel s) 0 []
  addGCActions actions
  modify fun s => { s with maybeFreeKrefs := [] }

end ProcessRefcounts

section GcActionChoice

def shouldProcessAction (action : GcAction) : KM Bool := do
  let hasCList ← hasCListEntry action.vatID action.kref
  let isReachable ← if hasCList then getReachableFlag action.vatID action.kref else pure false
  let counts ← getObjectRefCount action.kref
  match action.type with
  | .dropExport => return counts.exists_ && counts.reachable = 0 && hasCList && isReachable
  | .retireExport =>
    return counts.exists_ && counts.reachable = 0 && counts.recognizable = 0 && hasCList
  | .retireImport => return hasCList

def filterKrefs : List GcAction → KM (List KSlot)
  | [] => return []
  | action :: rest => do
    insistKernelType .object action.kref
    let keep ← shouldProcessAction action
    let krefs ← filterKrefs rest
    return if keep then action.kref :: krefs else krefs

/-- The groups of actions, by vat and then by type, in order of priority. -/
def gcActionGroups (actions : List GcAction) : List (VatID × GcActionType) :=
  let vatIDs := sortBy vatIDKey (actions.map (·.vatID)).dedup
  vatIDs.flatMap fun vatID =>
    [GcActionType.dropExport, .retireExport, .retireImport].filterMap fun type =>
      if actions.any (fun a => a.vatID = vatID ∧ a.type = type) then some (vatID, type) else none

/-- Take the groups in order until one has a kref left to act on. -/
def takeGcGroups : List (VatID × GcActionType) → List GcAction → KM (Option RunQueueEvent)
  | [], remaining => do
    if remaining.length = (← getStore).gcActions.length then return none
    else
      setGCActions remaining
      return some .negatedGcAction
  | (vatID, type) :: groups, remaining => do
    provideVatKeeper vatID
    let group := remaining.filter fun a => a.vatID = vatID ∧ a.type = type
    let krefs ← filterKrefs group
    let rest := remaining.filter fun a => ¬ (a.vatID = vatID ∧ a.type = type)
    if krefs = [] then takeGcGroups groups rest
    else
      setGCActions rest
      return some (.gc type vatID (sortBy KSlot.key krefs))

def processGCActionSet : KM (Option RunQueueEvent) := do
  let actions := (← getStore).gcActions
  actions.forM fun action => insistKernelType .object action.kref
  takeGcGroups (gcActionGroups actions) actions

end GcActionChoice

section Enumerations

/-- The vat slots of a c-list that pass the test, in the order of their keys. -/
def vrefsOf (st : KVStore) (vatID : VatID) (test : JSString → Bool) : List JSString :=
  sortBy id ((st.clistV.keys.filter fun e => e.1 = vatID ∧ test e.2 = true).map (·.2))

/-- The key begins with the prefix and goes on. -/
def properPrefix (pre vref : JSString) : Bool :=
  pre.isPrefixOf vref && vref != pre

def isDeciderOf (vatID : VatID) (p : KernelPromise) : Bool :=
  match p.state with
  | .unresolved decider _ _ _ => decider = some vatID
  | _ => false

/-- Run the body on each unresolved promise decided by the vat. -/
def forPromisesByDecider (vatID : VatID) (body : KSlot → KernelPromise → KM PUnit) :
    KM PUnit := do
  let vrefs := vrefsOf (← getStore) vatID (properPrefix ['p'])
  vrefs.forM fun vref => do
    match (← getStore).clistV.lookup (vatID, vref) with
    | none => pure ⟨⟩
    | some kpid =>
      let p ← getKernelPromise kpid
      if isDeciderOf vatID p then body kpid p else pure ⟨⟩

/-- Ephemeral exports are `o+NN`, merely virtual ones `o+vNN/MM`; the root
object is left out. -/
def isNonDurableExport (vref : JSString) : Bool :=
  ((properPrefix ['o', '+'] vref && !lexLE ['o', '+', 'd'] vref) ||
    properPrefix ['o', '+', 'v'] vref) && vref != ['o', '+', '0']

def enumerateNonDurableObjectExports (vatID : VatID) : KM (List KSlot) := do
  let st ← getStore
  return (vrefsOf st vatID isNonDurableExport).filterMap fun vref => st.clistV.lookup (vatID, vref)

end Enumerations

section Cleanup

/-- Act on the keys in order until the budget is spent; the count of keys done,
and whether it ran out. Keys that are gone by their turn are skipped. -/
def cleanupPhase {κ : Type} (act : κ → KM Bool) : Option Nat → List κ → KM (Nat × Bool)
  | _, [] => return (0, false)
  | budget, key :: keys => do
    if ← act key then
      let remaining := budget.map (· - 1)
      if remaining = some 0 then return (1, true)
      else
        let (count, stop) ← cleanupPhase act remaining keys
        return (count + 1, stop)
    else cleanupPhase act budget keys

/-- The keys `vNN.*` of a vat, apart from the prefix. -/
inductive VatKey where
  | clistKernelSlot (kref : KSlot)
  | clistVatSlot (vref : JSString)
  | dNextID
  | oNextID
  | options
  | pNextID
  | reapDirt
  | source
  | vatParameters
  | vatstore (key : JSString)
deriving DecidableEq

def VatKey.suffix : VatKey → JSString
  | .clistKernelSlot kref => ['c', '.'] ++ kref.key
  | .clistVatSlot vref => ['c', '.'] ++ vref
  | .dNextID => ['d', '.', 'n', 'e', 'x', 't', 'I', 'D']
  | .oNextID => ['o', '.', 'n', 'e', 'x', 't', 'I', 'D']
  | .options => ['o', 'p', 't', 'i', 'o', 'n', 's']
  | .pNextID => ['p', '.', 'n', 'e', 'x', 't', 'I', 'D']
  | .reapDirt => ['r', 'e', 'a', 'p', 'D', 'i', 'r', 't']
  | .source => ['s', 'o', 'u', 'r', 'c', 'e']
  | .vatParameters => ['v', 'a', 't', 'P', 'a', 'r', 'a', 'm', 'e', 't', 'e', 'r', 's']
  | .vatstore key => ['v', 's', '.'] ++ key

def keysOfVat {κ : Type} [DecidableEq κ] {α : Type} (t : Table (VatID × κ) α) (vatID : VatID)
    (make : κ → VatKey) : List VatKey :=
  (t.keys.filter fun e => e.1 = vatID).map fun e => make e.2

def vatKeys (st : KVStore) (vatID : VatID) : List VatKey :=
  let one (present : Bool) (key : VatKey) : List VatKey := if present then [key] else []
  sortBy VatKey.suffix <|
    keysOfVat st.clistK vatID .clistKernelSlot ++
    keysOfVat st.clistV vatID .clistVatSlot ++
    one (st.dNextID.has vatID) .dNextID ++
    one (st.oNextID.has vatID) .oNextID ++
    one (st.vatOptions.has vatID) .options ++
    one (st.pNextID.has vatID) .pNextID ++
    one (st.reapDirt.has vatID) .reapDirt ++
    one (st.vatSource.has vatID) .source ++
    one (st.vatParameters.has vatID) .vatParameters ++
    keysOfVat st.vatstore vatID .vatstore

def deleteVatKey (vatID : VatID) (key : VatKey) : KM Bool := do
  modifyStore fun st =>
    match key with
    | .clistKernelSlot kref => { st with clistK := st.clistK.erase (vatID, kref) }
    | .clistVatSlot vref => { st with clistV := st.clistV.erase (vatID, vref) }
    | .dNextID => { st with dNextID := st.dNextID.erase vatID }
    | .oNextID => { st with oNextID := st.oNextID.erase vatID }
    | .options => { st with vatOptions := st.vatOptions.erase vatID }
    | .pNextID => { st with pNextID := st.pNextID.erase vatID }
    | .reapDirt => { st with reapDirt := st.reapDirt.erase vatID }
    | .source => { st with vatSource := st.vatSource.erase vatID }
    | .vatParameters => { st with vatParameters := st.vatParameters.erase vatID }
    | .vatstore k => { st with vatstore := st.vatstore.erase (vatID, k) }
  return true

/-- What the snapshot and transcript stores report of one cleanup call: how
many records each deleted, and whether no transcript is left. -/
structure UndertakerReport where
  snapshots : Nat
  transcripts : Nat
  transcriptsDone : Bool
deriving DecidableEq

structure CleanupWork where
  exports : Nat
  imports : Nat
  promises : Nat
  kv : Nat
  snapshots : Nat
  transcripts : Nat
deriving DecidableEq

def orphanExport (vatID : VatID) (vref : JSString) : KM Bool := do
  match (← getStore).clistV.lookup (vatID, vref) with
  | none => return false
  | some kref =>
    orphanKernelObject kref vatID
    return true

def abandonEntry (vatID : VatID) (vref : JSString) : KM Bool := do
  match (← getStore).clistV.lookup (vatID, vref) with
  | none => return false
  | some kref =>
    deleteCListEntry vatID kref vref
    return true

def overBudget (budget : Option Nat) (spent : Nat) : Bool :=
  match budget with
  | none => false
  | some n => n ≤ spent

def cleanupAfterTerminatedVat (vatID : VatID) (budget : CleanupBudget)
    (report : UndertakerReport) : KM (Bool × CleanupWork) := do
  let noWork : CleanupWork := ⟨0, 0, 0, 0, 0, 0⟩
  let exports := vrefsOf (← getStore) vatID (properPrefix ['o', '+'])
  let (exportsDone, stop) ← cleanupPhase (orphanExport vatID) budget.exports exports
  let work := { noWork with exports := exportsDone }
  if stop then return (false, work)
  let imports := vrefsOf (← getStore) vatID (properPrefix ['o', '-'])
  let (importsDone, stop) ← cleanupPhase (abandonEntry vatID) budget.imports imports
  let work := { work with imports := importsDone }
  if stop then return (false, work)
  let promises := vrefsOf (← getStore) vatID (properPrefix ['p'])
  let (promisesDone, stop) ← cleanupPhase (abandonEntry vatID) budget.promises promises
  let work := { work with promises := promisesDone }
  if stop then return (false, work)
  let keys := vatKeys (← getStore) vatID
  let (kvDone, stop) ← cleanupPhase (deleteVatKey vatID) budget.kv keys
  let work := { work with kv := kvDone }
  if stop then return (false, work)
  let work := { work with snapshots := report.snapshots }
  if overBudget budget.snapshots report.snapshots then return (false, work)
  return (report.transcriptsDone, { work with transcripts := report.transcripts })

end Cleanup

end AgoricSdk.SwingSet
