import AgoricSdk.Liveslots.Collections

/-!
Dead objects: how a reference ceases to be recognized and a virtual object is
deleted, what `bringOutYourDead` does with the references that may be dead, and
what the kernel's deliveries about dropped and retired references do. These and
the calls of user code are the steps of a vat, from its first start on.
-/

namespace AgoricSdk.Liveslots

open SwingSet StateProgram KeyWalk

section Recognition

/-- Remove one reference from the weak collections in memory that know about it. -/
def forgetMapped (vref : VRef) : LM Bool := do
  match (← get).vrefRecognizers.lookup vref with
  | some recognizerSet =>
    modify fun s => { s with vrefRecognizers := s.vrefRecognizers.erase vref }
    recognizerSet.forM fun recognizer => removeMapped recognizer vref
    return !recognizerSet.isEmpty
  | none => return false

/-- One key of the walk over `vom.ir.${vref}|`. -/
def forgetEntry (vref : VRef) (collectionID : CollectionID) : LM Bool := do
  modify fun s => { s with ir := s.ir.erase (vref, collectionID) }
  deleteCollectionEntry collectionID vref

def ceaseRecognitionOfVRef (vref : VRef) : LM Bool := do
  let doMoreGC1 ← forgetMapped vref
  -- and from (weak) virtual collections that knew about it
  let doMoreGC2 ← enumerate collectionKey (Vat.recognizing vref) (forgetEntry vref) []
  return doMoreGC1 || doMoreGC2

/-- A base reference of a multi-faceted object stands for all of its facets. -/
def ceaseRecognition (vref : VRef) : LM Bool := do
  match vref with
  | .representative c none =>
    match ((← get).kindInfoTable.lookup c.kindID).bind (·.facetNames) with
    | some facetNames =>
      let doMoreGC ← (List.range facetNames.length).mapM fun i =>
        ceaseRecognitionOfVRef (.representative c (some i))
      return doMoreGC.any id
    | none => ceaseRecognitionOfVRef vref
  | _ => ceaseRecognitionOfVRef vref

end Recognition

section Deletion

def deleteStoredRepresentation (c : Cohort) : LM Bool := do
  let kindInfo ← required ((← get).kindInfoTable.lookup c.kindID) (.noKindInfo c.kindID)
  match kindInfo.deleter with
  | .kindHandle => return false
  | .store => deleteCollection c
  | .storedVO => deleteStoredVO (.representative c none)

/-- Returns the facets to retire, too. -/
def deleteVirtualObject (c : Cohort) : LM (Bool × List VRef) := do
  let baseRef := VRef.representative c none
  let refCount ← getRefCount baseRef
  let (reachable, retirees) := (← get).getExportStatus c
  insist (reachable = false) .assertion
  insist (refCount = 0) .assertion
  let doMoreGC1 ← deleteStoredRepresentation c
  modify fun s => { s with rc := s.rc.erase baseRef, es := s.es.erase baseRef }
  let doMoreGC2 ← ceaseRecognition baseRef
  return (doMoreGC2 || doMoreGC1, retirees)

def checkExportRepresentative (c : Cohort) : LM (List VRef) := do
  let remembered := decide (.representative c none ∈ (← get).slotToVal)
  let referenced ← isVirtualObjectReachable c
  if remembered || referenced then
    return []
  else
    let (_, exportsToRetire) ← deleteVirtualObject c
    return exportsToRetire

def checkExportRemotable (vref : VRef) : LM (List VRef) := do
  let s ← get
  if vref ∈ s.slotToVal then
    return []
  else
    modify fun s =>
      { s with
        kernelRecognizableRemotables := s.kernelRecognizableRemotables.filter (· ≠ vref) }
    discard (ceaseRecognition vref)
    return if vref ∈ s.kernelRecognizableRemotables then [vref] else []

def checkImportPresence (vref : VRef) : LM Bool := do
  let remembered := decide (vref ∈ (← get).slotToVal)
  let referenced ← isPresenceReachable vref
  return !(remembered || referenced)

def Scan.drop (scan : Scan) (vref : VRef) : Scan :=
  { scan with importsToDrop := addTo scan.importsToDrop vref }

def Scan.retire (scan : Scan) (vrefs : List VRef) : Scan :=
  { scan with exportsToRetire := vrefs.foldl addTo scan.exportsToRetire }

/-- One turn of the loop of `scanForDeadObjects`. The references come in sorted order
there, and the loop goes on until none is left. -/
def scanOne (vrefOrBaseRef : VRef) : LM PUnit := do
  modify fun s => { s with possiblyDeadSet := s.possiblyDeadSet.filter (· ≠ vrefOrBaseRef) }
  match vrefOrBaseRef with
  | .representative c _ =>
    let exportsToRetire ← checkExportRepresentative c
    modify fun s => { s with scan := s.scan.map fun scan => scan.retire exportsToRetire }
  | .remotable _ =>
    let exportsToRetire ← checkExportRemotable vrefOrBaseRef
    modify fun s => { s with scan := s.scan.map fun scan => scan.retire exportsToRetire }
  | .presence _ =>
    let dead ← checkImportPresence vrefOrBaseRef
    if dead then
      modify fun s => { s with scan := s.scan.map fun scan => scan.drop vrefOrBaseRef }
      addToPossiblyRetiredSet vrefOrBaseRef
  | .promise .. | .device _ => throw .assertion

/-- The imports among the references that may be retired which are retired. -/
def importsToRetire (scan : Scan) : LM (List VRef) := do
  let s ← get
  modify fun s => { s with possiblyRetiredSet := [] }
  return s.possiblyRetiredSet.filter fun vref =>
    vref.isPresence &&
      !((vref ∉ scan.importsToDrop && (vref ∈ s.slotToVal || (s.rc.lookup vref).getD 0 != 0)) ||
        s.vrefRecognizers.has vref || s.recognizing vref != [])

/-- The kernel's side of `syscall.retireExports`: a reference that is not in the c-list,
or is there as reachable, is fatal to the vat. -/
def kernelRetireExports (vrefs : List VRef) : LM PUnit :=
  modify fun s =>
    if ∀ vref ∈ vrefs, s.clist.lookup vref = some false then
      { s with clist := vrefs.foldl (fun t vref => t.erase vref) s.clist }
    else { s with terminated := true }

/-- The end of `scanForDeadObjects`, when nothing is left to look at. What the kernel
does about imports is not modelled. -/
def finishScan (scan : Scan) : LM PUnit := do
  discard (importsToRetire scan)
  kernelRetireExports scan.exportsToRetire
  modify fun s => { s with scan := none }

end Deletion

section Kernel

/-- The kernel learns of an export, or comes to reach it again. -/
def kernelExport (vref : VRef) : LM PUnit :=
  modify fun s => { s with clist := s.clist.insert vref true }

def retainExportedVref (vref : VRef) : LM PUnit := do
  match vref with
  | .representative c facet => setExportStatus c facet .reachable
  | .remotable _ =>
    requiredValForSlot vref
    modify fun s =>
      { s with
        exportedRemotables := addTo s.exportedRemotables vref
        kernelRecognizableRemotables := addTo s.kernelRecognizableRemotables vref }
  | .presence _ | .promise .. | .device _ => pure ⟨⟩

/-- A syscall with these slots: they are retained, then translated by the kernel. -/
def exportSlots (slots : List VRef) : LM PUnit := do
  slots.forM retainExportedVref
  slots.forM fun vref =>
    match vref with
    | .remotable _ | .representative .. => kernelExport vref
    | .presence _ | .promise .. | .device _ => pure ⟨⟩

def dropOneExport (vref : VRef) : LM PUnit := do
  if vref ∈ (← get).slotToVal then
    modify fun s => { s with exportedRemotables := s.exportedRemotables.filter (· ≠ vref) }
  match vref with
  | .representative c facet => setExportStatus c facet .recognizable
  | .presence _ | .remotable _ | .promise .. | .device _ => pure ⟨⟩

def retireOneExport (vref : VRef) : LM PUnit := do
  match vref with
  | .representative c facet => setExportStatus c facet .none
  | .remotable _ =>
    modify fun s =>
      { s with
        kernelRecognizableRemotables := s.kernelRecognizableRemotables.filter (· ≠ vref) }
  | .presence _ | .promise .. | .device _ => throw .assertion

/-- The kernel clears the flags, then delivers. -/
def dropExports (vrefs : List VRef) : LM PUnit := do
  vrefs.forM fun vref => modify fun s => { s with clist := s.clist.insert vref false }
  vrefs.forM dropOneExport

/-- The kernel deletes its entries, then delivers. -/
def retireExports (vrefs : List VRef) : LM PUnit := do
  vrefs.forM fun vref => modify fun s => { s with clist := s.clist.erase vref }
  vrefs.forM retireOneExport

def retireImports (vrefs : List VRef) : LM PUnit :=
  vrefs.forM fun vref => discard (ceaseRecognition vref)

def afterDispatchActions : LM PUnit :=
  modify fun s => { s with dataCache := s.dataCache.flush, schemaCache := s.schemaCache.flush }

end Kernel

section Steps

def initialKinds : Table Nat KindInfo :=
  storeKinds.foldl (fun t kind => t.insert kind.kindID ⟨.store, kind.durable, none⟩)
    (Table.insert ∅ kindIDID ⟨.kindHandle, true, none⟩)

def rootObject : VRef := .remotable 0

def baggageRef : VRef := .representative (StoreKind.scalarDurableMapStore.vobjID 1) none

/-- A vat once liveslots has set itself up for the first time. The root object is its
first export, and the baggage the first collection. -/
def Vat.fresh : Vat where
  rc := Table.insert ∅ baggageRef 1
  es := ∅
  ir := ∅
  dataCache := .ofTable ∅
  durableKinds := ∅
  nextInstanceIDs := ∅
  stores := Table.insert ∅ 1 .scalarDurableMapStore
  ordinals := ∅
  records := ∅
  nextOrdinal := Table.insert ∅ 1 1
  entryCount := Table.insert ∅ 1 0
  schemaCache := .ofTable (Table.insert ∅ 1 noSlots)
  baggage := baggageRef
  exportID := 10
  collectionID := 2
  promiseID := 5
  kindInfoTable := initialKinds
  definedDurableKinds := []
  slotToVal := [baggageRef, rootObject]
  exportedRemotables := [rootObject]
  kernelRecognizableRemotables := [rootObject]
  remotableRefCounts := ∅
  vrefRecognizers := ∅
  virtualObjectMaps := ∅
  weakID := 0
  possiblyDeadSet := []
  possiblyRetiredSet := []
  started := false
  scan := none
  clist := Table.insert ∅ rootObject true
  terminated := false

/-- The exports that an upgrade does not abandon. -/
def VRef.survives : VRef → Bool
  | .representative c _ => c.isDurable
  | vref => vref = rootObject

/-- The next incarnation: the kernel abandons the exports that are not durable, the
memory is gone, no durable object knows a collection that is not durable, and
liveslots sets itself up again. -/
def Vat.upgraded (s : Vat) : Vat :=
  { s with
    clist := s.clist.filter fun vref _ => vref.survives
    stores := s.stores.filter fun _ kind => kind.durable
    kindInfoTable := initialKinds
    definedDurableKinds := []
    slotToVal := [baggageRef, rootObject]
    exportedRemotables := [rootObject]
    kernelRecognizableRemotables := [rootObject]
    remotableRefCounts := ∅
    vrefRecognizers := ∅
    virtualObjectMaps := ∅
    possiblyDeadSet := []
    possiblyRetiredSet := []
    started := false }

/-- A virtual object, collection or kind handle that was made and not deleted. -/
def Vat.present (s : Vat) (c : Cohort) : Prop :=
  if c.kindID = kindIDID then c.isDurable = true ∧ s.durableKinds.has c.subid = true
  else if ∃ kind ∈ storeKinds, c.kindID = kind.kindID then
    ∃ kind ∈ storeKinds, s.stores.lookup c.subid = some kind ∧ kind.vobjID c.subid = c
  else s.dataCache.content.has (.representative c none) = true

instance (s : Vat) (c : Cohort) : Decidable (s.present c) := by
  unfold Vat.present
  infer_instance

/-- The facet is one of the kind's, or the kind has none. -/
def KindInfo.hasFacet (kindInfo : KindInfo) (facet : Option Nat) : Prop :=
  match kindInfo.facetNames with
  | some facetNames => ∃ i < facetNames.length, facet = some i
  | none => facet = none

instance (kindInfo : KindInfo) (facet : Option Nat) : Decidable (kindInfo.hasFacet facet) := by
  unfold KindInfo.hasFacet
  split <;> infer_instance

/-- The reference of a value that is in memory. -/
def Vat.holds (s : Vat) (vref : VRef) : Prop :=
  vref.baseRef ∈ s.slotToVal ∧
    match vref with
    | .representative c facet =>
      ∃ kindInfo, s.kindInfoTable.lookup c.kindID = some kindInfo ∧ kindInfo.hasFacet facet
    | _ => True

instance decidableExistsSome {α : Type} (o : Option α) (p : α → Prop) [DecidablePred p] :
    Decidable (∃ a, o = some a ∧ p a) :=
  match o with
  | some a => decidable_of_iff (p a) ⟨fun h => ⟨a, rfl, h⟩, fun ⟨_, h, hp⟩ => by cases h; exact hp⟩
  | none => isFalse fun ⟨_, h, _⟩ => by cases h

instance (s : Vat) (vref : VRef) : Decidable (s.holds vref) := by
  unfold Vat.holds
  split <;> infer_instance

inductive VatAction where
  -- user code makes, receives and forgets values
  | makeRemotable
  | makePromise
  | receive (vref : VRef)
  | forget (vref : VRef)
  | finalize (baseRef : VRef)
  | defineKind (multifaceted : Bool) (behavior : Behavior)
  | makeKindHandle
  | defineDurableKind (kindID : Nat) (multifaceted : Bool) (behavior : Behavior)
      (stateShape : CapData)
  | makeNewInstance (kindID : Nat) (initialData : List (String × CapData))
  | setProperty (c : Cohort) (prop : String) (value : CapData)
  | makeCollection (kind : StoreKind) (schema : CapData)
  | storeInit (collectionID : CollectionID) (key : Key) (value : CapData)
  | addToSet (collectionID : CollectionID) (key : Key)
  | storeSet (collectionID : CollectionID) (key : Key) (value : CapData)
  | storeDelete (collectionID : CollectionID) (key : Key)
  | storeClear (collectionID : CollectionID)
  | makeWeakCollection
  | weakMapSet (m : WeakID) (vref : VRef)
  | weakSetAdd (m : WeakID) (vref : VRef)
  | weakDelete (m : WeakID) (vref : VRef)
  | finalizeWeakCollection (m : WeakID)
  | exportSlots (slots : List VRef)
  | afterDispatch
  -- the kernel
  | insistAllDurableKindsReconnected
  | dropExports (vrefs : List VRef)
  | retireExports (vrefs : List VRef)
  | retireImports (vrefs : List VRef)
  | startScan
  | scanOne (vref : VRef)
  | finishScan
  | upgrade

/-- User code and the engine's collector run a program; what it throws is for user
code to catch. -/
def Vat.run (s : Vat) (program : LM PUnit) : Option Vat := some (finalState program s)

/-- Liveslots runs a delivery; an error is fatal to the vat. -/
def Vat.deliver (s : Vat) (program : LM PUnit) : Option Vat :=
  match program s with
  | .ok _ t => some t
  | .error _ t => some { t with terminated := true }

/-- Slots that come from serializing values in memory. -/
def Vat.holdsAll (s : Vat) (slots : List VRef) : Prop := ∀ vref ∈ slots, s.holds vref

instance (s : Vat) (slots : List VRef) : Decidable (s.holdsAll slots) :=
  inferInstanceAs (Decidable (∀ _ ∈ _, _))

def Key.heldBy (s : Vat) : Key → Prop
  | .remotable vref => s.holds vref
  | .other _ => True

instance (s : Vat) (key : Key) : Decidable (key.heldBy s) := by
  unfold Key.heldBy
  split <;> infer_instance

/-- A reference that values in memory are made for. -/
def Vat.receivable (s : Vat) : VRef → Prop
  | .presence _ | .promise .. | .device _ => True
  | .remotable id => .remotable id ∈ s.slotToVal
  | .representative c facet =>
    s.present c ∧ ∃ kindInfo, s.kindInfoTable.lookup c.kindID = some kindInfo ∧
      kindInfo.durable = c.isDurable ∧ kindInfo.hasFacet facet

instance (s : Vat) (vref : VRef) : Decidable (s.receivable vref) := by
  unfold Vat.receivable
  split <;> infer_instance

/-- Nothing in memory holds the value. The root object and promises have no finalizer. -/
def Vat.collectable (s : Vat) (baseRef : VRef) : Prop :=
  baseRef ∈ s.slotToVal ∧ baseRef.isObject = true ∧ baseRef ≠ rootObject ∧
    baseRef ∉ s.exportedRemotables ∧ s.remotableRefCounts.has baseRef = false

instance (s : Vat) (baseRef : VRef) : Decidable (s.collectable baseRef) :=
  inferInstanceAs (Decidable (_ ∧ _))

def finalizeDroppedObject (baseRef : VRef) : LM PUnit := do
  addToPossiblyDeadSet baseRef
  modify fun s => { s with slotToVal := s.slotToVal.filter (· ≠ baseRef) }

/-- What user code or the engine does, where it can. -/
def Vat.userStep (s : Vat) : VatAction → Option Vat
  | .makeRemotable => s.run do
    let id ← allocateExportID
    registerValue (.remotable id)
  | .makePromise => s.run do
    let id := (← get).promiseID
    modify fun s => { s with promiseID := id + 1 }
    registerValue (.promise true id)
  | .receive vref => if s.receivable vref then s.run (registerValue vref.baseRef) else none
  | .forget vref =>
    if vref.parsed.type = .promise ∧ s.remotableRefCounts.has vref = false then
      some { s with slotToVal := s.slotToVal.filter (· ≠ vref) }
    else none
  | .finalize baseRef =>
    if s.collectable baseRef then s.run (finalizeDroppedObject baseRef) else none
  | .defineKind multifaceted behavior => s.run (defineKind multifaceted behavior)
  | .makeKindHandle => s.run makeKindHandle
  | .defineDurableKind kindID multifaceted behavior stateShape =>
    if s.holdsAll stateShape.slots then
      s.run (defineDurableKind kindID multifaceted behavior stateShape)
    else none
  | .makeNewInstance kindID initialData =>
    if (∀ property ∈ initialData, s.holdsAll property.2.slots) ∧
        (s.kindInfoTable.lookup kindID).map (·.deleter) = some .storedVO then
      s.run (makeNewInstance kindID initialData)
    else none
  | .setProperty c prop value =>
    if s.holdsAll value.slots ∧ s.present c ∧ .representative c none ∈ s.slotToVal then
      s.run (setProperty c prop value)
    else none
  | .makeCollection kind schema =>
    if s.holdsAll schema.slots then s.run (makeCollection kind schema) else none
  | .storeInit collectionID key value =>
    match s.stores.lookup collectionID with
    | some kind =>
      if s.holdsAll value.slots ∧ key.heldBy s then s.run (storeInit kind collectionID key value)
      else none
    | none => none
  | .addToSet collectionID key =>
    match s.stores.lookup collectionID with
    | some kind => if key.heldBy s then s.run (addToSet kind collectionID key) else none
    | none => none
  | .storeSet collectionID key value =>
    match s.stores.lookup collectionID with
    | some kind =>
      if s.holdsAll value.slots ∧ key.heldBy s then s.run (storeSet kind collectionID key value)
      else none
    | none => none
  | .storeDelete collectionID key =>
    match s.stores.lookup collectionID with
    | some kind => if key.heldBy s then s.run (storeDelete kind collectionID key) else none
    | none => none
  | .storeClear collectionID =>
    match s.stores.lookup collectionID with
    | some kind => if kind.hasWeakKeys then none else s.run (storeClear collectionID kind)
    | none => none
  | .makeWeakCollection => s.run makeWeakCollection
  | .weakMapSet m vref =>
    if s.holds vref ∧ s.virtualObjectMaps.has m = true then s.run (weakMapSet m vref) else none
  | .weakSetAdd m vref =>
    if s.holds vref ∧ s.virtualObjectMaps.has m = true then s.run (weakSetAdd m vref) else none
  | .weakDelete m vref =>
    if s.holds vref ∧ s.virtualObjectMaps.has m = true then s.run (weakDelete m vref) else none
  | .finalizeWeakCollection m => s.run (voAwareDeleter m)
  | .exportSlots slots => if s.holdsAll slots then s.run (exportSlots slots) else none
  | .afterDispatch => s.run afterDispatchActions
  | _ => none

/-- The kernel's deliveries. It drops only what it reaches, retires only what it has
dropped, and tells about imports only. -/
def Vat.deliveryStep (s : Vat) : VatAction → Option Vat
  | .dropExports vrefs =>
    if vrefs.Nodup ∧ ∀ vref ∈ vrefs, s.clist.lookup vref = some true then
      s.deliver (dropExports vrefs)
    else none
  | .retireExports vrefs =>
    if vrefs.Nodup ∧ ∀ vref ∈ vrefs, s.clist.lookup vref = some false then
      s.deliver (retireExports vrefs)
    else none
  | .retireImports vrefs =>
    if ∀ vref ∈ vrefs, vref.isPresence = true then s.deliver (retireImports vrefs) else none
  | .startScan => some { s with scan := some ⟨[], []⟩ }
  | .upgrade => some s.upgraded
  | _ => none

/-- While the vat looks for dead objects, user code does not run, but the engine
collects. -/
def Vat.scanStep (s : Vat) (scan : Scan) : VatAction → Option Vat
  | .scanOne vref => if vref ∈ s.possiblyDeadSet then s.deliver (scanOne vref) else none
  | .finishScan => if s.possiblyDeadSet = [] then s.deliver (finishScan scan) else none
  | .finalize baseRef => s.userStep (.finalize baseRef)
  | .finalizeWeakCollection m => s.userStep (.finalizeWeakCollection m)
  | _ => none

def Vat.step (s : Vat) (action : VatAction) : Option Vat :=
  if s.terminated then none
  else
    match s.scan with
    | some scan => s.scanStep scan action
    | none =>
      match action with
      | .insistAllDurableKindsReconnected =>
        if ∀ kindID ∈ s.durableKinds.keys, kindID ∈ s.definedDurableKinds then
          some { s with started := true }
        else none
      | _ => (s.userStep action).orElse fun _ => if s.started then s.deliveryStep action else none

/-- A vat from its first start on. -/
def vat : TransitionSystem Vat VatAction where
  init s := s = Vat.fresh
  step := Vat.step

end Steps

end AgoricSdk.Liveslots
