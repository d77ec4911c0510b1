import AgoricSdk.Lib.KeyWalk
import AgoricSdk.Lib.Transition
import AgoricSdk.Lib.WriteBackCache
import AgoricSdk.Liveslots.VatSlotGrammar
import Mathlib.Data.Char
import Mathlib.Data.List.Lex

/-!
The virtual reference manager of liveslots: the records it keeps in the vatstore
(`vom.rc.`, `vom.es.`, `vom.ir.`) and in memory about the references of a vat,
and the functions that read and write them. The state is the one of the whole
of liveslots as far as the managers share it, with the kernel's table of the
vat's exports next to it.
-/

namespace AgoricSdk.Liveslots

open SwingSet StateProgram

section References

/-- A virtual object or a cohort of facets, by the numbers in its base reference. -/
structure Cohort where
  isDurable : Bool
  kindID : Nat
  subid : Nat
deriving DecidableEq

/-- The references that liveslots hands out or is handed, read as `parseVatSlot`
reads them. -/
inductive VRef where
  | presence (id : Nat)
  | remotable (id : Nat)
  | promise (allocatedByVat : Bool) (id : Nat)
  | device (id : Nat)
  | representative (cohort : Cohort) (facet : Option Nat)
deriving DecidableEq

def Cohort.spell (c : Cohort) : JSString := makeBaseRef c.kindID c.subid c.isDurable

def VRef.spell : VRef → JSString
  | .presence id => makeVatSlot .object false id
  | .remotable id => makeVatSlot .object true id
  | .promise allocatedByVat id => makeVatSlot .promise allocatedByVat id
  | .device id => makeVatSlot .device false id
  | .representative c none => c.spell
  | .representative c (some facet) => c.spell ++ ':' :: decimal facet

def VRef.parsed (v : VRef) : ParsedVatSlot :=
  match v with
  | .presence id => ⟨.object, false, false, false, id, none, v.spell, none⟩
  | .remotable id => ⟨.object, true, false, false, id, none, v.spell, none⟩
  | .promise allocatedByVat id => ⟨.promise, allocatedByVat, false, false, id, none, v.spell, none⟩
  | .device id => ⟨.device, false, false, false, id, none, v.spell, none⟩
  | .representative c facet =>
    ⟨.object, true, !c.isDurable, c.isDurable, c.kindID, some c.subid, c.spell, facet⟩

/-- The reference under which what concerns a cohort as a whole is kept. -/
def VRef.baseRef : VRef → VRef
  | .representative c _ => .representative c none
  | v => v

def VRef.isPresence : VRef → Bool
  | .presence _ => true
  | _ => false

def VRef.isObject : VRef → Bool
  | .presence _ | .remotable _ | .representative .. => true
  | .promise .. | .device _ => false

/-- `!allocatedByVat || virtual || durable`, of an object -/
def VRef.notRemotable : VRef → Bool
  | .presence _ | .representative .. => true
  | .remotable _ | .promise .. | .device _ => false

/-- What is serialized names each value by one slot. -/
structure CapData where
  slots : List VRef
  nodup : slots.Nodup

end References

section State

abbrev FacetName := String

abbrev CollectionID := Nat

abbrev WeakID := Nat

/-- The letters of a `vom.es.` record: `n`, `s` and `r`. -/
inductive ExportStatus where
  | none
  | recognizable
  | reachable
deriving DecidableEq

/-- What deletes the stored representation of a kind's instances. -/
inductive Deleter where
  | kindHandle
  | store
  | storedVO
deriving DecidableEq

structure KindInfo where
  deleter : Deleter
  durable : Bool
  facetNames : Option (List FacetName)
deriving DecidableEq

structure DurableKindDescriptor where
  unfaceted : Bool
  facets : Option (List FacetName)
  stateShape : CapData

inductive StoreKind where
  | scalarMapStore
  | scalarWeakMapStore
  | scalarSetStore
  | scalarWeakSetStore
  | scalarDurableMapStore
  | scalarDurableWeakMapStore
  | scalarDurableSetStore
  | scalarDurableWeakSetStore
deriving DecidableEq

/-- The encoding of a key that is no remotable. Those of the remotables start with
`r`, and `|` marks what is no entry. -/
structure PlainText where
  tag : Char
  rest : JSString
  plain : tag ≠ 'r' ∧ tag ≠ '|'
deriving DecidableEq

/-- The key of a collection's entry as it is encoded: a remotable by its ordinal and
its reference. -/
inductive EncodedKey where
  | remotable (ordinal : Nat) (vref : VRef)
  | other (text : PlainText)
deriving DecidableEq

/-- `zeroPad(ordinal, BIGINT_TAG_LEN)` -/
def zeroPad (ordinal : Nat) : JSString :=
  List.replicate (10 - (decimal ordinal).length) '0' ++ decimal ordinal

def EncodedKey.spell : EncodedKey → JSString
  | .remotable ordinal vref => 'r' :: (zeroPad ordinal ++ ':' :: vref.spell)
  | .other text => text.tag :: text.rest

/-- What is collected while dead objects are looked for. -/
structure Scan where
  importsToDrop : List VRef
  exportsToRetire : List VRef
deriving DecidableEq

structure Vat where
  -- the vatstore: reference counts, export status, recognition records
  rc : Table VRef Nat
  es : Table VRef (List ExportStatus)
  ir : Table (VRef × CollectionID) Unit
  -- virtual objects and durable kinds
  dataCache : WriteBackCache VRef (Table String CapData)
  durableKinds : Table Nat DurableKindDescriptor
  nextInstanceIDs : Table Nat Nat
  -- collections: `vc.C.|vref`, `vc.C.key`, `vc.C.|nextOrdinal` and so on
  stores : Table CollectionID StoreKind
  ordinals : Table (CollectionID × VRef) Nat
  records : Table (CollectionID × EncodedKey) CapData
  nextOrdinal : Table CollectionID Nat
  entryCount : Table CollectionID Int
  schemaCache : WriteBackCache CollectionID CapData
  baggage : Option VRef
  exportID : Nat
  collectionID : Nat
  promiseID : Nat
  -- memory
  kindInfoTable : Table Nat KindInfo
  definedDurableKinds : List Nat
  slotToVal : List VRef
  exportedRemotables : List VRef
  kernelRecognizableRemotables : List VRef
  remotableRefCounts : Table VRef Nat
  vrefRecognizers : Table VRef (List WeakID)
  virtualObjectMaps : Table WeakID (List VRef)
  weakID : WeakID
  possiblyDeadSet : List VRef
  possiblyRetiredSet : List VRef
  started : Bool
  scan : Option Scan
  -- the kernel's c-list for the exports of this vat, with the reachability flags
  clist : Table VRef Bool
  terminated : Bool

/-- What liveslots throws. -/
inductive Fault where
  /-- `no value for ...` -/
  | noValue (vref : VRef)
  /-- `attempt to decref ... below 0` -/
  | decrefBelowZero (vref : VRef)
  /-- `setRefCount ... should not receive individual facets` -/
  | individualFacet (vref : VRef)
  /-- a property of `undefined`, or `no kind info for ...` -/
  | noKindInfo (kindID : Nat)
  /-- a failed `assert` -/
  | assertion
  | alreadyRegistered
  | notFound
  | notDurable (vref : VRef)
  | unknownHandle (kindID : Nat)
  | redefinition (kindID : Nat)
  | unfacetedKindHandle
  | facetedKindHandle
  | missingFacet (facet : FacetName)
deriving DecidableEq

abbrev LM := EStateM Fault Vat

def insist (condition : Prop) [Decidable condition] (fault : Fault) : LM PUnit :=
  if condition then pure ⟨⟩ else throw fault

def required {α : Type} (value : Option α) (fault : Fault) : LM α :=
  match value with
  | some a => pure a
  | none => throw fault

/-- `set.add(element)` -/
def addTo {α : Type} [DecidableEq α] (set : List α) (element : α) : List α :=
  if element ∈ set then set else set ++ [element]

@[simp] theorem mem_addTo {α : Type} [DecidableEq α] {set : List α} {a b : α} :
    a ∈ addTo set b ↔ a = b ∨ a ∈ set := by
  unfold addTo
  split
  · exact ⟨Or.inr, fun h => h.elim (fun heq => heq ▸ ‹_›) id⟩
  · rw [List.mem_append, List.mem_singleton, or_comm]

end State

section Pillars

def addToPossiblyDeadSet (baseRef : VRef) : LM PUnit :=
  modify fun s => { s with possiblyDeadSet := addTo s.possiblyDeadSet baseRef }

def addToPossiblyRetiredSet (vref : VRef) : LM PUnit :=
  modify fun s => { s with possiblyRetiredSet := addTo s.possiblyRetiredSet vref }

def requiredValForSlot (baseRef : VRef) : LM PUnit := do
  insist (baseRef ∈ (← get).slotToVal) (.noValue baseRef)

def getRefCount (baseRef : VRef) : LM Nat := do
  return ((← get).rc.lookup baseRef).getD 0

def setRefCount (baseRef : VRef) (refCount : Nat) : LM PUnit := do
  -- facet 0 is falsy
  insist (baseRef.parsed.facet.getD 0 = 0) (.individualFacet baseRef)
  if refCount = 0 then
    modify fun s => { s with rc := s.rc.erase baseRef }
    addToPossiblyDeadSet baseRef
  else
    modify fun s => { s with rc := s.rc.insert baseRef refCount }

def incRefCount (baseRef : VRef) : LM PUnit := do
  let oldRefCount ← getRefCount baseRef
  setRefCount baseRef (oldRefCount + 1)

def decRefCount (baseRef : VRef) : LM PUnit := do
  let oldRefCount ← getRefCount baseRef
  insist (0 < oldRefCount) (.decrefBelowZero baseRef)
  setRefCount baseRef (oldRefCount - 1)

def getFacetNames (kindID : Nat) : LM (Option (List FacetName)) := do
  let kindInfo ← required ((← get).kindInfoTable.lookup kindID) (.noKindInfo kindID)
  return kindInfo.facetNames

def getFacetCount (kindID : Nat) : LM Nat := do
  return match ← getFacetNames kindID with
    | some facetNames => facetNames.length
    | none => 1

/-- The reachability of a record and the facets that it says are recognizable. -/
def exportStatus (es : List ExportStatus) (c : Cohort) : Bool × List VRef :=
  let reachable := decide (.reachable ∈ es)
  if reachable then (true, [])
  else if es = [.recognizable] then
    -- unfaceted
    (false, [.representative c none])
  else
    -- faceted
    (false, (List.range es.length).filterMap fun i =>
      if es[i]? = some .recognizable then some (.representative c (some i)) else none)

/-- No record reads like an empty one. -/
def Vat.getExportStatus (s : Vat) (c : Cohort) : Bool × List VRef :=
  exportStatus ((s.es.lookup (.representative c none)).getD []) c

/-- `es.padEnd(count, 'n')` -/
def padEnd (es : List ExportStatus) (count : Nat) : List ExportStatus :=
  es ++ List.replicate (count - es.length) .none

/-- `es[facetIdx] = status` and `es.join('')`, where holes vanish. -/
def writeStatus (es : List ExportStatus) (facetIdx : Nat) (status : ExportStatus) :
    List ExportStatus :=
  if facetIdx < es.length then es.set facetIdx status else es ++ [status]

def setExportStatus (c : Cohort) (facet : Option Nat) (status : ExportStatus) : LM PUnit := do
  let baseRef := VRef.representative c none
  let esRaw := (← get).es.lookup baseRef
  let count ← getFacetCount c.kindID
  let es := writeStatus (padEnd (esRaw.getD []) count) (facet.getD 0) status
  match status with
  | .recognizable =>
    modify fun s => { s with es := s.es.insert baseRef es }
    let refCount ← getRefCount baseRef
    if refCount = 0 ∧ .reachable ∉ es then
      addToPossiblyDeadSet baseRef
  | .reachable => modify fun s => { s with es := s.es.insert baseRef es }
  | .none =>
    if .reachable ∉ es ∧ .recognizable ∉ es then
      modify fun s => { s with es := s.es.erase baseRef }
    else
      modify fun s => { s with es := s.es.insert baseRef es }

def isVirtualObjectReachable (c : Cohort) : LM Bool := do
  let refCount ← getRefCount (.representative c none)
  let (reachable, _) := (← get).getExportStatus c
  return reachable || refCount != 0

def isPresenceReachable (vref : VRef) : LM Bool := do
  return (← getRefCount vref) != 0

def isDurable (vref : VRef) : LM Bool := do
  match vref with
  | .device _ | .presence _ => return true
  | .promise .. | .remotable _ => return false
  | .representative c _ =>
    let kindInfo ← required ((← get).kindInfoTable.lookup c.kindID) (.noKindInfo c.kindID)
    return kindInfo.durable

end Pillars

section References

def addReachableVref (vref : VRef) : LM PUnit := do
  match vref with
  | .presence _ | .representative .. => incRefCount vref.baseRef
  | .remotable _ | .promise .. =>
    requiredValForSlot vref
    modify fun s =>
      { s with
        remotableRefCounts :=
          s.remotableRefCounts.insert vref ((s.remotableRefCounts.lookup vref).getD 0 + 1) }
  | .device _ => pure ⟨⟩

/-- Tells whether the reference in memory was dropped. -/
def removeReachableVref (vref : VRef) : LM Bool := do
  match vref with
  | .presence _ | .representative .. =>
    decRefCount vref.baseRef
    return false
  | .remotable _ | .promise .. =>
    requiredValForSlot vref
    let oldRefCount := ((← get).remotableRefCounts.lookup vref).getD 0
    insist (0 < oldRefCount) (.decrefBelowZero vref)
    if oldRefCount = 1 then
      modify fun s => { s with remotableRefCounts := s.remotableRefCounts.erase vref }
      return true
    else
      modify fun s =>
        { s with remotableRefCounts := s.remotableRefCounts.insert vref (oldRefCount - 1) }
      return false
  | .device _ => return false

/-- `slots.map(removeReachableVref).some(b => b)` -/
def removeReachableVrefs (slots : List VRef) : LM Bool := do
  let dropped ← slots.mapM removeReachableVref
  return dropped.any id

def updateReferenceCounts (beforeSlots afterSlots : List VRef) : LM PUnit :=
  let keys := (beforeSlots ++ afterSlots).dedup.insertionSort fun v w => v.spell ≤ w.spell
  keys.forM fun vref =>
    if vref ∈ beforeSlots then
      if vref ∈ afterSlots then pure ⟨⟩ else discard (removeReachableVref vref)
    else addReachableVref vref

end References

section Recognizers

/-- A record of a collection that can recognize the key, in the vatstore. -/
def addVirtualRecognizer (vref : VRef) (collectionID : CollectionID) : LM PUnit :=
  if vref.isObject then
    modify fun s => { s with ir := s.ir.insert (vref, collectionID) () }
  else pure ⟨⟩

/-- A record of a `VirtualObjectAwareWeakMap` or `VirtualObjectAwareWeakSet`, in memory. -/
def addRecognizer (vref : VRef) (recognizer : WeakID) : LM PUnit :=
  if vref.notRemotable then
    modify fun s =>
      { s with
        vrefRecognizers :=
          s.vrefRecognizers.insert vref (addTo ((s.vrefRecognizers.lookup vref).getD []) recognizer) }
  else pure ⟨⟩

def removeVirtualRecognizer (vref : VRef) (collectionID : CollectionID) : LM PUnit :=
  if vref.isObject then do
    modify fun s => { s with ir := s.ir.erase (vref, collectionID) }
    if vref.isPresence then
      addToPossiblyRetiredSet vref
  else pure ⟨⟩

def removeRecognizer (vref : VRef) (recognizer : WeakID) : LM PUnit :=
  if vref.notRemotable then do
    let recognizerSet ← required ((← get).vrefRecognizers.lookup vref) .assertion
    insist (recognizer ∈ recognizerSet) .assertion
    let rest := recognizerSet.filter (· ≠ recognizer)
    if rest = [] then
      modify fun s => { s with vrefRecognizers := s.vrefRecognizers.erase vref }
      if vref.isPresence then
        addToPossiblyRetiredSet vref
    else
      modify fun s => { s with vrefRecognizers := s.vrefRecognizers.insert vref rest }
  else pure ⟨⟩

def collectionKey (collectionID : CollectionID) : JSString := decimal collectionID

/-- The collections with a recognition record for the key, `vom.ir.${vref}|...`. -/
def Vat.recognizing (vref : VRef) (s : Vat) : List CollectionID :=
  (s.ir.keys.filter fun k => k.1 = vref).map (·.2)

def isVrefRecognizable (vref : VRef) : LM Bool := do
  let s ← get
  return s.vrefRecognizers.has vref || s.recognizing vref != []

end Recognizers

end AgoricSdk.Liveslots
