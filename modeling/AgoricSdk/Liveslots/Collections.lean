import AgoricSdk.Liveslots.VirtualReferences

/-!
Kinds, virtual objects and collections: what the virtual object manager and the
collection manager of liveslots do to the state they share with the manager of
virtual references. Shapes of keys and values are not modelled; a value that
does not match its shape is refused before anything changes.
-/

namespace AgoricSdk.Liveslots

open SwingSet StateProgram KeyWalk

section Facetiousness

/-- A behavior given to a kind: its methods, or facets with methods. -/
inductive Behavior where
  | function
  | object (properties : List ((FacetName ⊕ Unit) × Behavior))
  | other

inductive Facetiousness where
  | one
  | many
  | not
deriving DecidableEq

mutual

def assessFacetiousness : Behavior → Facetiousness
  | .object properties => assessProperties none properties
  | .function | .other => .not

/-- The loop over the properties, with the result of the first one. A property
whose name is a symbol cannot be a facet. -/
def assessProperties : Option Facetiousness → List ((FacetName ⊕ Unit) × Behavior) → Facetiousness
  -- empty objects are methodless Far objects
  | result, [] => result.getD .one
  | result, (prop, value) :: rest =>
    let fromProp : Option Facetiousness :=
      match value with
      | .function => some .one
      | value => if prop.isLeft ∧ assessFacetiousness value = .one then some .many else none
    match fromProp, result with
    | none, _ => .not
    | some fromProp, none => assessProperties (some fromProp) rest
    | some fromProp, some first =>
      if fromProp = first then assessProperties result rest else .not

end

/-- `ownKeys(behavior).sort()` -/
def Behavior.facetNames : Behavior → List FacetName
  | .object properties =>
    (properties.filterMap fun p => p.1.getLeft?).insertionSort (· ≤ ·)
  | .function | .other => []

/-- All old facets must be present in the proposal; what they leave of it. -/
def proposalWithout : List FacetName → List FacetName → Except Fault (List FacetName)
  | [], proposal => .ok proposal
  | facet :: oldFacetNames, proposal =>
    if facet ∈ proposal then proposalWithout oldFacetNames (proposal.erase facet)
    else .error (.missingFacet facet)

def checkAndUpdateFacetiousness (desc : DurableKindDescriptor)
    (proposedFacetNames : Option (List FacetName)) : Except Fault DurableKindDescriptor := do
  if desc.unfaceted ∧ proposedFacetNames.isSome then throw .unfacetedKindHandle
  if desc.facets.isSome ∧ proposedFacetNames.isNone then throw .facetedKindHandle
  match proposedFacetNames with
  | some proposedFacetNames =>
    let oldFacetNames := desc.facets.getD []
    let proposal ← proposalWithout oldFacetNames proposedFacetNames
    -- new facets are appended in alphabetic order
    return { desc with facets := some (oldFacetNames ++ proposal.insertionSort (· ≤ ·)) }
  | none => return { desc with unfaceted := true }

end Facetiousness

section Kinds

/-- The kind of the handles of durable kinds. -/
def kindIDID : Nat := 1

def allocateExportID : LM Nat := do
  let id := (← get).exportID
  modify fun s => { s with exportID := id + 1 }
  return id

def registerKind (kindID : Nat) (kindInfo : KindInfo) : LM PUnit :=
  modify fun s => { s with kindInfoTable := s.kindInfoTable.insert kindID kindInfo }

def registerValue (baseRef : VRef) : LM PUnit :=
  modify fun s => { s with slotToVal := addTo s.slotToVal baseRef }

def insistDurableCapdata (data : CapData) : LM PUnit :=
  data.slots.forM fun vref => do
    let durable ← isDurable vref
    insist (durable = true) (.notDurable vref)

/-- Durable objects and collections hold durable references only. -/
def insistDurableIf (durable : Bool) (data : CapData) : LM PUnit :=
  if durable then insistDurableCapdata data else pure ⟨⟩

/-- The facet names that a definition asks for. -/
def proposedFacetNames (multifaceted : Bool) (behavior : Behavior) :
    LM (Option (List FacetName)) := do
  match assessFacetiousness behavior with
  | .one =>
    insist (multifaceted = false) .assertion
    return none
  | .many =>
    insist (multifaceted = true) .assertion
    return some behavior.facetNames
  | .not => throw .assertion

def defineDurableKind (kindID : Nat) (multifaceted : Bool) (behavior : Behavior)
    (stateShape : CapData) : LM PUnit := do
  let desc ← required ((← get).durableKinds.lookup kindID) (.unknownHandle kindID)
  insist (kindID ∉ (← get).definedDurableKinds) (.redefinition kindID)
  let proposed ← proposedFacetNames multifaceted behavior
  let updated ← MonadExcept.ofExcept (checkAndUpdateFacetiousness desc proposed)
  insistDurableCapdata stateShape
  updateReferenceCounts desc.stateShape.slots stateShape.slots
  modify fun s =>
    { s with durableKinds := s.durableKinds.insert kindID { updated with stateShape := stateShape } }
  registerKind kindID ⟨.storedVO, true, updated.facets⟩
  modify fun s => { s with definedDurableKinds := kindID :: s.definedDurableKinds }

def defineKind (multifaceted : Bool) (behavior : Behavior) : LM PUnit := do
  let kindID ← allocateExportID
  modify fun s => { s with nextInstanceIDs := s.nextInstanceIDs.insert kindID 1 }
  let proposed ← proposedFacetNames multifaceted behavior
  registerKind kindID ⟨.storedVO, false, proposed⟩

def noSlots : CapData := ⟨[], List.nodup_nil⟩

def makeKindHandle : LM PUnit := do
  let kindID ← allocateExportID
  modify fun s =>
    { s with
      durableKinds := s.durableKinds.insert kindID ⟨false, none, noSlots⟩
      nextInstanceIDs := s.nextInstanceIDs.insert kindID 1 }
  registerValue (.representative ⟨true, kindIDID, kindID⟩ none)

def getNextInstanceID (kindID : Nat) : LM Nat := do
  let id ← required ((← get).nextInstanceIDs.lookup kindID) .assertion
  modify fun s => { s with nextInstanceIDs := s.nextInstanceIDs.insert kindID (id + 1) }
  return id

def makeNewInstance (kindID : Nat) (initialData : List (String × CapData)) : LM PUnit := do
  let kindInfo ← required ((← get).kindInfoTable.lookup kindID) (.noKindInfo kindID)
  let id ← getNextInstanceID kindID
  let baseRef := VRef.representative ⟨kindInfo.durable, kindID, id⟩ none
  initialData.forM fun property => do
    insistDurableIf kindInfo.durable property.2
    property.2.slots.forM addReachableVref
  let capdatas := initialData.foldl (fun t property => t.insert property.1 property.2) ∅
  modify fun s => { s with dataCache := s.dataCache.set baseRef capdatas }
  registerValue baseRef

/-- The state of a virtual object, through the cache. -/
def getData (baseRef : VRef) : LM (Table String CapData) := do
  let (record, cache) := (← get).dataCache.get baseRef
  modify fun s => { s with dataCache := cache }
  required record .assertion

/-- A property of the state is set. -/
def setProperty (c : Cohort) (prop : String) (capdata : CapData) : LM PUnit := do
  let baseRef := VRef.representative c none
  insistDurableIf c.isDurable capdata
  let capdatas ← getData baseRef
  let oldSlots := ((capdatas.lookup prop).map (·.slots)).getD []
  updateReferenceCounts oldSlots capdata.slots
  modify fun s => { s with dataCache := s.dataCache.set baseRef (capdatas.insert prop capdata) }

def deleteStoredVO (baseRef : VRef) : LM Bool := do
  let capdatas ← getData baseRef
  let dropped ← capdatas.pairs.mapM fun property => removeReachableVrefs property.2.slots
  modify fun s => { s with dataCache := s.dataCache.delete baseRef }
  return dropped.any id

end Kinds

section Stores

def StoreKind.hasWeakKeys : StoreKind → Bool
  | .scalarWeakMapStore | .scalarWeakSetStore | .scalarDurableWeakMapStore
  | .scalarDurableWeakSetStore => true
  | .scalarMapStore | .scalarSetStore | .scalarDurableMapStore | .scalarDurableSetStore => false

def StoreKind.durable : StoreKind → Bool
  | .scalarDurableMapStore | .scalarDurableWeakMapStore | .scalarDurableSetStore
  | .scalarDurableWeakSetStore => true
  | .scalarMapStore | .scalarWeakMapStore | .scalarSetStore | .scalarWeakSetStore => false

/-- The ids are allocated at the first start of the vat, after that of the handles. -/
def StoreKind.kindID : StoreKind → Nat
  | .scalarMapStore => 2
  | .scalarWeakMapStore => 3
  | .scalarSetStore => 4
  | .scalarWeakSetStore => 5
  | .scalarDurableMapStore => 6
  | .scalarDurableWeakMapStore => 7
  | .scalarDurableSetStore => 8
  | .scalarDurableWeakSetStore => 9

def storeKinds : List StoreKind :=
  [.scalarMapStore, .scalarWeakMapStore, .scalarSetStore, .scalarWeakSetStore,
    .scalarDurableMapStore, .scalarDurableWeakMapStore, .scalarDurableSetStore,
    .scalarDurableWeakSetStore]

def StoreKind.vobjID (kind : StoreKind) (collectionID : CollectionID) : Cohort :=
  ⟨kind.durable, kind.kindID, collectionID⟩

/-- A key of a collection. -/
inductive Key where
  | remotable (vref : VRef)
  | other (text : PlainText)
deriving DecidableEq

def getSchema (collectionID : CollectionID) : LM CapData := do
  let (schema, cache) := (← get).schemaCache.get collectionID
  modify fun s => { s with schemaCache := cache }
  required schema .assertion

def generateOrdinal (collectionID : CollectionID) (vref : VRef) : LM PUnit := do
  let nextOrdinal ← required ((← get).nextOrdinal.lookup collectionID) .assertion
  modify fun s =>
    { s with
      ordinals := s.ordinals.insert (collectionID, vref) nextOrdinal
      nextOrdinal := s.nextOrdinal.insert collectionID (nextOrdinal + 1) }

def encodeKey (collectionID : CollectionID) (key : Key) : LM EncodedKey := do
  match key with
  | .remotable vref =>
    let ordinal ← required ((← get).ordinals.lookup (collectionID, vref)) .notFound
    return .remotable ordinal vref
  | .other text => return .other text

def storeHas (collectionID : CollectionID) (key : Key) : LM Bool := do
  discard (getSchema collectionID)
  let s ← get
  return match key with
    | .remotable vref => s.ordinals.has (collectionID, vref)
    | .other text => s.records.has (collectionID, .other text)

def mustGet (collectionID : CollectionID) (key : Key) : LM (EncodedKey × CapData) := do
  let encodedKey ← encodeKey collectionID key
  let result ← required ((← get).records.lookup (collectionID, encodedKey)) .notFound
  return (encodedKey, result)

def updateEntryCount (kind : StoreKind) (collectionID : CollectionID) (delta : Int) : LM PUnit :=
  if kind.hasWeakKeys then pure ⟨⟩
  else
    modify fun s =>
      { s with
        entryCount :=
          s.entryCount.insert collectionID ((s.entryCount.lookup collectionID).getD 0 + delta) }

/-- What `doInit` does about a key that is a remotable. -/
def enterKey (kind : StoreKind) (collectionID : CollectionID) (key : Key) : LM PUnit :=
  match key with
  | .remotable vref => do
    let durable ← (if kind.durable then isDurable vref else pure true)
    insist (durable = true) (.notDurable vref)
    generateOrdinal collectionID vref
    if kind.hasWeakKeys then addVirtualRecognizer vref collectionID
    else addReachableVref vref
  | .other _ => pure ⟨⟩

def doInit (kind : StoreKind) (collectionID : CollectionID) (key : Key) (value : CapData)
    (precheckedHas : Bool) : LM PUnit := do
  discard (getSchema collectionID)
  let registered ← (if precheckedHas then pure false else storeHas collectionID key)
  insist (registered = false) .alreadyRegistered
  insistDurableIf kind.durable value
  enterKey kind collectionID key
  value.slots.forM addReachableVref
  let encodedKey ← encodeKey collectionID key
  modify fun s => { s with records := s.records.insert (collectionID, encodedKey) value }
  updateEntryCount kind collectionID 1

def storeInit (kind : StoreKind) (collectionID : CollectionID) (key : Key) (value : CapData) :
    LM PUnit :=
  doInit kind collectionID key value false

def addToSet (kind : StoreKind) (collectionID : CollectionID) (key : Key) : LM PUnit := do
  let registered ← storeHas collectionID key
  if registered then pure ⟨⟩ else doInit kind collectionID key noSlots true

def storeSet (kind : StoreKind) (collectionID : CollectionID) (key : Key) (after : CapData) :
    LM PUnit := do
  discard (getSchema collectionID)
  insistDurableIf kind.durable after
  let (encodedKey, before) ← mustGet collectionID key
  updateReferenceCounts before.slots after.slots
  modify fun s => { s with records := s.records.insert (collectionID, encodedKey) after }

def deleteInternal (kind : StoreKind) (collectionID : CollectionID) (key : Key) : LM Bool := do
  discard (getSchema collectionID)
  let (encodedKey, value) ← mustGet collectionID key
  let doMoreGC1 ← removeReachableVrefs value.slots
  modify fun s => { s with records := s.records.erase (collectionID, encodedKey) }
  match key with
  | .remotable vref =>
    modify fun s => { s with ordinals := s.ordinals.erase (collectionID, vref) }
    if kind.hasWeakKeys then
      removeVirtualRecognizer vref collectionID
      return doMoreGC1
    else
      let doMoreGC2 ← removeReachableVref vref
      return doMoreGC1 || doMoreGC2
  | .other _ => return doMoreGC1

def storeDelete (kind : StoreKind) (collectionID : CollectionID) (key : Key) : LM PUnit := do
  discard (deleteInternal kind collectionID key)
  updateEntryCount kind collectionID (-1)

/-- The keys under `vc.${collectionID}.`, but for those of the metadata. -/
inductive StoreKey where
  | record (key : EncodedKey)
  | ordinal (vref : VRef)
deriving DecidableEq

def StoreKey.spell : StoreKey → JSString
  | .record key => key.spell
  | .ordinal vref => '|' :: vref.spell

def Vat.storeKeys (collectionID : CollectionID) (s : Vat) : List StoreKey :=
  ((s.records.keys.filter fun k => k.1 = collectionID).map fun k => .record k.2) ++
    (s.ordinals.keys.filter fun k => k.1 = collectionID).map fun k => .ordinal k.2

def clearKey (kind : StoreKind) (collectionID : CollectionID) : StoreKey → LM Bool
  | .ordinal vref => do
    -- ordinal assignment; decref or de-recognize its vref
    let doMoreGC ←
      (if kind.hasWeakKeys then do
        removeVirtualRecognizer vref collectionID
        pure false
      else removeReachableVref vref)
    modify fun s => { s with ordinals := s.ordinals.erase (collectionID, vref) }
    return doMoreGC
  | .record key => do
    -- a collection entry; decref slots from its value
    let value ← required ((← get).records.lookup (collectionID, key)) .assertion
    let doMoreGC ← removeReachableVrefs value.slots
    modify fun s => { s with records := s.records.erase (collectionID, key) }
    return doMoreGC

def clearInternalFull (kind : StoreKind) (collectionID : CollectionID) : LM Bool :=
  enumerate StoreKey.spell (Vat.storeKeys collectionID) (clearKey kind collectionID) []

/-- `clear()` without patterns; only the collections with strong keys offer it. -/
def storeClear (collectionID : CollectionID) (kind : StoreKind) : LM PUnit := do
  discard (clearInternalFull kind collectionID)
  if kind.hasWeakKeys then pure ⟨⟩
  else modify fun s => { s with entryCount := s.entryCount.insert collectionID 0 }

def deleteCollection (c : Cohort) : LM Bool := do
  let collectionID := c.subid
  let kind ← required (storeKinds.find? fun kind => kind.kindID = c.kindID) .assertion
  let doMoreGC1 ← clearInternalFull kind collectionID
  let schema ← getSchema collectionID
  let doMoreGC2 ← removeReachableVrefs schema.slots
  modify fun s =>
    { s with
      nextOrdinal := s.nextOrdinal.erase collectionID
      entryCount := s.entryCount.erase collectionID
      schemaCache := s.schemaCache.delete collectionID
      stores := s.stores.erase collectionID }
  return doMoreGC1 || doMoreGC2

def makeCollection (kind : StoreKind) (schema : CapData) : LM PUnit := do
  let collectionID := (← get).collectionID
  modify fun s =>
    { s with
      collectionID := collectionID + 1
      nextOrdinal := s.nextOrdinal.insert collectionID 1
      entryCount :=
        if kind.hasWeakKeys then s.entryCount else s.entryCount.insert collectionID 0 }
  insistDurableIf kind.durable schema
  schema.slots.forM addReachableVref
  modify fun s =>
    { s with
      schemaCache := s.schemaCache.set collectionID schema
      stores := s.stores.insert collectionID kind }
  registerValue (.representative (kind.vobjID collectionID) none)

/-- Delete the entry of a key that is being collected. -/
def deleteCollectionEntry (collectionID : CollectionID) (vref : VRef) : LM Bool := do
  let ordinal ← required ((← get).ordinals.lookup (collectionID, vref)) .assertion
  modify fun s => { s with ordinals := s.ordinals.erase (collectionID, vref) }
  match (← get).records.lookup (collectionID, .remotable ordinal vref) with
  | some value =>
    let doMoreGC ← removeReachableVrefs value.slots
    modify fun s =>
      { s with records := s.records.erase (collectionID, .remotable ordinal vref) }
    return doMoreGC
  | none => return false

end Stores

section WeakCollections

/-- `vmap.has(vkey)` -/
def Vat.mapped (s : Vat) (m : WeakID) (vref : VRef) : Prop :=
  vref ∈ (s.virtualObjectMaps.lookup m).getD []

instance (s : Vat) (m : WeakID) (vref : VRef) : Decidable (s.mapped m vref) :=
  inferInstanceAs (Decidable (_ ∈ _))

def makeWeakCollection : LM PUnit :=
  modify fun s =>
    { s with virtualObjectMaps := s.virtualObjectMaps.insert s.weakID [], weakID := s.weakID + 1 }

def addMapped (m : WeakID) (vref : VRef) : LM PUnit :=
  modify fun s =>
    { s with
      virtualObjectMaps :=
        s.virtualObjectMaps.insert m (addTo ((s.virtualObjectMaps.lookup m).getD []) vref) }

def removeMapped (m : WeakID) (vref : VRef) : LM PUnit :=
  modify fun s =>
    { s with
      virtualObjectMaps :=
        s.virtualObjectMaps.insert m
          (((s.virtualObjectMaps.lookup m).getD []).filter (· ≠ vref)) }

/-- `VirtualObjectAwareWeakMap.set`. A key that is a remotable stays with the engine's
own `WeakMap`, which needs no record of it. -/
def weakMapSet (m : WeakID) (vref : VRef) : LM PUnit := do
  if vref.notRemotable then
    if (← get).mapped m vref then pure ⟨⟩ else addRecognizer vref m
    addMapped m vref

/-- `VirtualObjectAwareWeakSet.add`, which asks the set for the value instead of its
reference, and so adds the recognizer every time. -/
def weakSetAdd (m : WeakID) (vref : VRef) : LM PUnit := do
  if vref.notRemotable then
    addRecognizer vref m
    addMapped m vref

/-- `delete` of both. -/
def weakDelete (m : WeakID) (vref : VRef) : LM PUnit := do
  if vref.notRemotable then
    if (← get).mapped m vref then
      removeRecognizer vref m
      removeMapped m vref

/-- `voAwareWeakMapDeleter` and `voAwareWeakSetDeleter`, once the engine has collected
the collection. -/
def voAwareDeleter (m : WeakID) : LM PUnit := do
  let vmap := ((← get).virtualObjectMaps.lookup m).getD []
  vmap.forM fun vref => removeRecognizer vref m
  modify fun s => { s with virtualObjectMaps := s.virtualObjectMaps.erase m }

end WeakCollections

end AgoricSdk.Liveslots
