import AgoricSdk.Liveslots.DeadObjects

/-!
What the functions of the managers leave alone of what there is to know about
cohorts: kinds, export records, the kernel's table and the collections there are.
-/

namespace AgoricSdk.Liveslots

open SwingSet StateProgram KeyWalk

-- A program of many steps needs a deep search.
set_option synthInstance.maxSize 2000

section Frame

structure ExportView where
  es : Table VRef (List ExportStatus)
  clist : Table VRef Bool
  kindInfoTable : Table Nat KindInfo
  durableKinds : Table Nat DurableKindDescriptor
  exportID : Nat
  scan : Option Scan
  definedDurableKinds : List Nat
  terminated : Bool

/-- What has to do with exports directly. -/
@[reducible] def Vat.exportView (s : Vat) : ExportView :=
  ⟨s.es, s.clist, s.kindInfoTable, s.durableKinds, s.exportID, s.scan, s.definedDurableKinds,
    s.terminated⟩

/-- What tells which cohorts there are. -/
@[reducible] def Vat.cohortView (s : Vat) :
    ExportView × List VRef × Table CollectionID StoreKind × Nat :=
  ⟨s.exportView, s.slotToVal, s.stores, s.collectionID⟩

abbrev SameCohorts : Vat → Vat → Prop := Unchanged Vat.cohortView

variable {R : Vat → Vat → Prop} [IsPreorder Vat R]

instance (condition : Prop) [Decidable condition] (fault : Fault) :
    Moves R (insist condition fault) := by
  unfold insist; infer_instance

instance {α : Type} (value : Option α) (fault : Fault) : Moves R (required value fault) := by
  unfold required; split <;> infer_instance

instance {α : Type} (program : LM α) [Moves R program] : Moves R (discard program) :=
  inferInstanceAs (Moves R ((fun _ => PUnit.unit) <$> program))

instance (baseRef : VRef) : Moves R (requiredValForSlot baseRef) := by
  unfold requiredValForSlot; infer_instance

instance (baseRef : VRef) : Moves R (getRefCount baseRef) := by
  unfold getRefCount; infer_instance

instance (vref : VRef) : Moves R (isPresenceReachable vref) := by
  unfold isPresenceReachable; infer_instance

instance (vref : VRef) : Moves R (isDurable vref) := by
  unfold isDurable
  cases vref <;> infer_instance

instance (data : CapData) : Moves R (insistDurableCapdata data) := by
  unfold insistDurableCapdata; infer_instance

instance (durable : Bool) (data : CapData) : Moves R (insistDurableIf durable data) := by
  unfold insistDurableIf; infer_instance

instance (multifaceted : Bool) (behavior : Behavior) :
    Moves R (proposedFacetNames multifaceted behavior) := by
  unfold proposedFacetNames
  split <;> infer_instance

instance (collectionID : CollectionID) (key : Key) : Moves R (encodeKey collectionID key) := by
  unfold encodeKey
  cases key <;> infer_instance

instance (collectionID : CollectionID) (key : Key) : Moves R (mustGet collectionID key) := by
  unfold mustGet; infer_instance

instance (vref : VRef) : Moves R (checkImportPresence vref) := by
  unfold checkImportPresence; infer_instance

end Frame

section Quiet

instance (baseRef : VRef) : Moves SameCohorts (addToPossiblyDeadSet baseRef) := by
  unfold addToPossiblyDeadSet; infer_instance

instance (vref : VRef) : Moves SameCohorts (addToPossiblyRetiredSet vref) := by
  unfold addToPossiblyRetiredSet; infer_instance

instance (baseRef : VRef) (refCount : Nat) : Moves SameCohorts (setRefCount baseRef refCount) := by
  unfold setRefCount; infer_instance

instance (baseRef : VRef) : Moves SameCohorts (incRefCount baseRef) := by
  unfold incRefCount; infer_instance

instance (baseRef : VRef) : Moves SameCohorts (decRefCount baseRef) := by
  unfold decRefCount; infer_instance

instance (vref : VRef) : Moves SameCohorts (addReachableVref vref) := by
  unfold addReachableVref
  cases vref <;> infer_instance

instance (vref : VRef) : Moves SameCohorts (removeReachableVref vref) := by
  unfold removeReachableVref
  cases vref <;> infer_instance

instance (slots : List VRef) : Moves SameCohorts (removeReachableVrefs slots) := by
  unfold removeReachableVrefs; infer_instance

instance (beforeSlots afterSlots : List VRef) :
    Moves SameCohorts (updateReferenceCounts beforeSlots afterSlots) := by
  unfold updateReferenceCounts; infer_instance

instance (vref : VRef) (collectionID : CollectionID) :
    Moves SameCohorts (addVirtualRecognizer vref collectionID) := by
  unfold addVirtualRecognizer; infer_instance

instance (vref : VRef) (recognizer : WeakID) : Moves SameCohorts (addRecognizer vref recognizer) := by
  unfold addRecognizer; infer_instance

instance (vref : VRef) (collectionID : CollectionID) :
    Moves SameCohorts (removeVirtualRecognizer vref collectionID) := by
  unfold removeVirtualRecognizer; infer_instance

instance (vref : VRef) (recognizer : WeakID) :
    Moves SameCohorts (removeRecognizer vref recognizer) := by
  unfold removeRecognizer; infer_instance

instance (kindID : Nat) : Moves SameCohorts (getNextInstanceID kindID) := by
  unfold getNextInstanceID; infer_instance

instance (baseRef : VRef) : Moves SameCohorts (getData baseRef) := by
  unfold getData; infer_instance

instance (c : Cohort) (prop : String) (capdata : CapData) :
    Moves SameCohorts (setProperty c prop capdata) := by
  unfold setProperty; infer_instance

instance (baseRef : VRef) : Moves SameCohorts (deleteStoredVO baseRef) := by
  unfold deleteStoredVO; infer_instance

instance (collectionID : CollectionID) : Moves SameCohorts (getSchema collectionID) := by
  unfold getSchema; infer_instance

instance (collectionID : CollectionID) (vref : VRef) :
    Moves SameCohorts (generateOrdinal collectionID vref) := by
  unfold generateOrdinal; infer_instance

instance (collectionID : CollectionID) (key : Key) : Moves SameCohorts (storeHas collectionID key) := by
  unfold storeHas; infer_instance

instance (kind : StoreKind) (collectionID : CollectionID) (delta : Int) :
    Moves SameCohorts (updateEntryCount kind collectionID delta) := by
  unfold updateEntryCount; infer_instance

instance (kind : StoreKind) (collectionID : CollectionID) (key : Key) :
    Moves SameCohorts (enterKey kind collectionID key) := by
  unfold enterKey
  cases key <;> infer_instance

instance (kind : StoreKind) (collectionID : CollectionID) (key : Key) (value : CapData)
    (precheckedHas : Bool) :
    Moves SameCohorts (doInit kind collectionID key value precheckedHas) := by
  unfold doInit; infer_instance

instance (kind : StoreKind) (collectionID : CollectionID) (key : Key) (value : CapData) :
    Moves SameCohorts (storeInit kind collectionID key value) := by
  unfold storeInit; infer_instance

instance (kind : StoreKind) (collectionID : CollectionID) (key : Key) :
    Moves SameCohorts (addToSet kind collectionID key) := by
  unfold addToSet; infer_instance

instance (kind : StoreKind) (collectionID : CollectionID) (key : Key) (after : CapData) :
    Moves SameCohorts (storeSet kind collectionID key after) := by
  unfold storeSet; infer_instance

instance (kind : StoreKind) (collectionID : CollectionID) (key : Key) :
    Moves SameCohorts (deleteInternal kind collectionID key) := by
  unfold deleteInternal
  cases key <;> infer_instance

instance (kind : StoreKind) (collectionID : CollectionID) (key : Key) :
    Moves SameCohorts (storeDelete kind collectionID key) := by
  unfold storeDelete; infer_instance

instance (kind : StoreKind) (collectionID : CollectionID) (key : StoreKey) :
    Moves SameCohorts (clearKey kind collectionID key) := by
  cases key <;> unfold clearKey <;> infer_instance

instance (kind : StoreKind) (collectionID : CollectionID) :
    Moves SameCohorts (clearInternalFull kind collectionID) := by
  unfold clearInternalFull; infer_instance

instance (collectionID : CollectionID) (kind : StoreKind) :
    Moves SameCohorts (storeClear collectionID kind) := by
  unfold storeClear; infer_instance

instance (collectionID : CollectionID) (vref : VRef) :
    Moves SameCohorts (deleteCollectionEntry collectionID vref) := by
  unfold deleteCollectionEntry
  apply moves_seq inferInstance
  intro s
  apply moves_seq inferInstance
  intro ordinal
  apply moves_seq inferInstance
  intro _
  apply moves_seq inferInstance
  intro t
  split <;> infer_instance

instance : Moves SameCohorts makeWeakCollection := by
  unfold makeWeakCollection; infer_instance

instance (m : WeakID) (vref : VRef) : Moves SameCohorts (addMapped m vref) := by
  unfold addMapped; infer_instance

instance (m : WeakID) (vref : VRef) : Moves SameCohorts (removeMapped m vref) := by
  unfold removeMapped; infer_instance

instance (m : WeakID) (vref : VRef) : Moves SameCohorts (weakMapSet m vref) := by
  unfold weakMapSet; infer_instance

instance (m : WeakID) (vref : VRef) : Moves SameCohorts (weakSetAdd m vref) := by
  unfold weakSetAdd; infer_instance

instance (m : WeakID) (vref : VRef) : Moves SameCohorts (weakDelete m vref) := by
  unfold weakDelete; infer_instance

instance (m : WeakID) : Moves SameCohorts (voAwareDeleter m) := by
  unfold voAwareDeleter; infer_instance

instance (vref : VRef) : Moves SameCohorts (forgetMapped vref) := by
  unfold forgetMapped
  apply moves_seq inferInstance
  intro s
  split <;> infer_instance

instance (vref : VRef) (collectionID : CollectionID) :
    Moves SameCohorts (forgetEntry vref collectionID) := by
  unfold forgetEntry; infer_instance

instance (vref : VRef) : Moves SameCohorts (ceaseRecognitionOfVRef vref) := by
  unfold ceaseRecognitionOfVRef; infer_instance

instance (vref : VRef) : Moves SameCohorts (ceaseRecognition vref) := by
  unfold ceaseRecognition
  split
  · apply moves_seq inferInstance
    intro s
    split <;> infer_instance
  · infer_instance

instance (vrefs : List VRef) : Moves SameCohorts (retireImports vrefs) := by
  unfold retireImports; infer_instance

instance : Moves SameCohorts afterDispatchActions := by
  unfold afterDispatchActions; infer_instance

instance (scan : Scan) : Moves SameCohorts (importsToRetire scan) := by
  unfold importsToRetire; infer_instance

end Quiet

section Steady

def Cohort.isVirtualStore (c : Cohort) : Prop :=
  c.isDurable = false ∧ ∃ kind ∈ storeKinds, c.kindID = kind.kindID

/-- A cohort that was made under its kind. -/
structure Made (s : Vat) (c : Cohort) : Prop where
  kind : ∃ kindInfo, s.kindInfoTable.lookup c.kindID = some kindInfo ∧
    kindInfo.durable = c.isDurable
  store : c.isVirtualStore → c.subid < s.collectionID

/-- Nothing changes about exports and kinds. Collections may be made and deleted, and
what is brought to memory was made. -/
structure Steady (s t : Vat) : Prop where
  exports : t.exportView = s.exportView
  collectionID : s.collectionID ≤ t.collectionID
  stores : ∀ collectionID kind, t.stores.lookup collectionID = some kind →
    s.stores.lookup collectionID = some kind ∨
      s.collectionID ≤ collectionID ∧ collectionID < t.collectionID
  held : ∀ c, .representative c none ∈ t.slotToVal →
    .representative c none ∈ s.slotToVal ∨ Made t c

variable {s t u : Vat}

theorem Made.steady {c : Cohort} (h : Made s c) (hst : Steady s t) : Made t c where
  kind := by
    have hkinds : t.kindInfoTable = s.kindInfoTable := congrArg ExportView.kindInfoTable hst.exports
    rw [hkinds]
    exact h.kind
  store := fun hc => Nat.lt_of_lt_of_le (h.store hc) hst.collectionID

theorem Steady.refl (s : Vat) : Steady s s :=
  ⟨rfl, Nat.le_refl _, fun _ _ h => Or.inl h, fun _ h => Or.inl h⟩

theorem Steady.trans (h : Steady s t) (h' : Steady t u) : Steady s u where
  exports := h'.exports.trans h.exports
  collectionID := Nat.le_trans h.collectionID h'.collectionID
  stores := fun collectionID kind hlookup => by
    rcases h'.stores collectionID kind hlookup with hold | ⟨hle, hlt⟩
    · rcases h.stores collectionID kind hold with hold | ⟨hle, hlt⟩
      · exact Or.inl hold
      · exact Or.inr ⟨hle, Nat.lt_of_lt_of_le hlt h'.collectionID⟩
    · exact Or.inr ⟨Nat.le_trans h.collectionID hle, hlt⟩
  held := fun c hmem => by
    rcases h'.held c hmem with hold | hmade
    · exact (h.held c hold).imp id fun hmade => hmade.steady h'
    · exact Or.inr hmade

instance : IsPreorder Vat Steady where
  refl := Steady.refl
  trans _ _ _ := Steady.trans

theorem steady_of_same (h : SameCohorts s t) : Steady s t := by
  simp only [SameCohorts, Unchanged, Vat.cohortView, Prod.mk.injEq] at h
  obtain ⟨hexports, hslots, hstores, hid⟩ := h
  refine ⟨hexports, hid.ge, ?_, ?_⟩
  · rw [hstores]
    exact fun _ _ h => Or.inl h
  · rw [hslots]
    exact fun _ h => Or.inl h

instance (priority := low) {α : Type} (program : LM α) [Moves SameCohorts program] :
    Moves Steady program :=
  moves_mono program fun _ _ => steady_of_same

theorem wp_required {α : Type} (value : Option α) (fault : Fault) :
    Wp (required value fault) (fun a t => value = some a ∧ s = t) (fun _ t => s = t) s := by
  cases value with
  | none => exact rfl
  | some a => exact ⟨rfl, rfl⟩

theorem wp_insist {condition : Prop} [Decidable condition] (fault : Fault) :
    Wp (insist condition fault) (fun _ t => condition ∧ s = t) (fun _ t => ¬ condition ∧ s = t)
      s := by
  unfold insist
  by_cases h : condition
  · rw [if_pos h]
    exact ⟨h, rfl⟩
  · rw [if_neg h]
    exact ⟨h, rfl⟩

theorem registerValue_steady {baseRef : VRef}
    (h : ∀ c, baseRef = .representative c none → Made s c) :
    Wp (registerValue baseRef) (fun _ t => Steady s t) (fun _ _ => False) s := by
  refine ⟨rfl, Nat.le_refl _, fun _ _ h => Or.inl h, fun c hmem => ?_⟩
  rcases mem_addTo.mp hmem with heq | hold
  · exact Or.inr ⟨(h c heq.symm).kind, (h c heq.symm).store⟩
  · exact Or.inl hold

theorem makeNewInstance_steady {kindID : Nat} (initialData : List (String × CapData))
    (hkind : ∀ kind ∈ storeKinds, kindID ≠ kind.kindID) :
    Moves Steady (makeNewInstance kindID initialData) := by
  apply moves_of_wp
  intro s
  unfold makeNewInstance
  rw [wp_bind, wp_get, wp_bind]
  apply wp_mono (wp_required _ _)
  · rintro kindInfo _ ⟨hinfo, rfl⟩
    rw [wp_bind]
    apply wp_mono (wp_of_moves Steady (getNextInstanceID kindID) s)
    · intro id t hst
      dsimp only
      rw [wp_bind]
      apply wp_mono (wp_of_moves Steady _ t)
      · intro _ u htu
        rw [wp_bind, wp_modify]
        let v : Vat :=
          { u with
            dataCache := u.dataCache.set (.representative ⟨kindInfo.durable, kindID, id⟩ none)
              (initialData.foldl (fun t property => t.insert property.1 property.2) ∅) }
        have huv : Steady u v := ⟨rfl, Nat.le_refl _, fun _ _ h => Or.inl h, fun _ h => Or.inl h⟩
        have hsv : Steady s v := (hst.trans htu).trans huv
        have hmade : ∀ c, VRef.representative ⟨kindInfo.durable, kindID, id⟩ none =
            .representative c none → Made v c := by
          rintro c ⟨⟩
          refine ⟨⟨kindInfo, ?_, rfl⟩, ?_⟩
          · have hkinds : v.kindInfoTable = s.kindInfoTable :=
              congrArg ExportView.kindInfoTable hsv.exports
            rw [hkinds]
            exact hinfo
          · rintro ⟨-, kind, hmem, heq⟩
            exact absurd heq (hkind kind hmem)
        exact wp_mono (registerValue_steady hmade) (fun _ _ h => hsv.trans h) fun _ _ h => h.elim
      · exact fun _ u htu => hst.trans htu
    · exact fun _ t hst => hst
  · rintro _ _ rfl
    exact Steady.refl _

instance (c : Cohort) : Moves Steady (deleteCollection c) := by
  unfold deleteCollection
  apply moves_seq inferInstance
  intro kind
  apply moves_seq inferInstance
  intro _
  apply moves_seq inferInstance
  intro schema
  apply moves_seq inferInstance
  intro _
  apply moves_seq
  · apply moves_modify
    intro s
    refine ⟨rfl, Nat.le_refl _, fun collectionID kind h => Or.inl ?_, fun _ h => Or.inl h⟩
    rw [Table.lookup_erase] at h
    split at h
    · cases h
    · exact h
  · exact fun _ => inferInstance

/-- The kinds that liveslots registers itself are as it registered them. -/
def Vat.initialized (s : Vat) : Prop :=
  ∀ kindID kindInfo, initialKinds.lookup kindID = some kindInfo →
    s.kindInfoTable.lookup kindID = some kindInfo

theorem initialKinds_store (kind : StoreKind) :
    initialKinds.lookup kind.kindID = some ⟨.store, kind.durable, none⟩ := by
  cases kind <;> decide

theorem makeCollection_steady (hs : s.initialized) (kind : StoreKind) (schema : CapData) :
    Wp (makeCollection kind schema) (fun _ t => Steady s t) (fun _ t => Steady s t) s := by
  unfold makeCollection
  rw [wp_bind, wp_get, wp_bind, wp_modify, wp_bind]
  let s' : Vat :=
    { s with
      collectionID := s.collectionID + 1
      nextOrdinal := s.nextOrdinal.insert s.collectionID 1
      entryCount :=
        if kind.hasWeakKeys then s.entryCount else s.entryCount.insert s.collectionID 0 }
  have hss' : Steady s s' := ⟨rfl, Nat.le_succ _, fun _ _ h => Or.inl h, fun _ h => Or.inl h⟩
  have hlt : s.collectionID < s'.collectionID := Nat.lt_succ_self _
  apply wp_mono (wp_of_moves Steady (insistDurableIf kind.durable schema) s')
  · intro _ t hst
    rw [wp_bind]
    apply wp_mono (wp_of_moves Steady (schema.slots.forM addReachableVref) t)
    · intro _ u htu
      rw [wp_bind, wp_modify]
      let v : Vat :=
        { u with
          schemaCache := u.schemaCache.set s.collectionID schema
          stores := u.stores.insert s.collectionID kind }
      have hsu : Steady s' u := hst.trans htu
      have hid : s.collectionID < v.collectionID := Nat.lt_of_lt_of_le hlt hsu.collectionID
      have hsv : Steady s v := by
        refine ⟨(hss'.trans hsu).exports, (hss'.trans hsu).collectionID, ?_,
          fun c h => ((hss'.trans hsu).held c h).imp id fun hmade => ⟨hmade.kind, hmade.store⟩⟩
        intro collectionID kind' hlookup
        rw [Table.lookup_insert] at hlookup
        split at hlookup
        case isTrue heq => exact Or.inr ⟨heq.ge, heq ▸ hid⟩
        case isFalse => exact (hss'.trans hsu).stores collectionID kind' hlookup
      have hmade : ∀ c, VRef.representative (kind.vobjID s.collectionID) none =
          .representative c none → Made v c := by
        rintro c ⟨⟩
        refine ⟨⟨⟨.store, kind.durable, none⟩, ?_, rfl⟩, fun _ => hid⟩
        have hkinds : v.kindInfoTable = s.kindInfoTable :=
          congrArg ExportView.kindInfoTable hsv.exports
        rw [hkinds]
        exact hs _ _ (initialKinds_store kind)
      exact wp_mono (registerValue_steady hmade) (fun _ _ h => hsv.trans h) fun _ _ h => h.elim
    · exact fun _ u htu => hss'.trans (hst.trans htu)
  · exact fun _ t hst => hss'.trans hst

instance (c : Cohort) : Moves Steady (deleteStoredRepresentation c) := by
  unfold deleteStoredRepresentation
  apply moves_seq inferInstance
  intro s
  apply moves_seq inferInstance
  intro kindInfo
  split <;> infer_instance

instance (baseRef : VRef) : Moves Steady (finalizeDroppedObject baseRef) := by
  unfold finalizeDroppedObject
  apply moves_seq inferInstance
  intro _
  apply moves_modify
  exact fun s => ⟨rfl, Nat.le_refl _, fun _ _ h => Or.inl h,
    fun c h => Or.inl (List.mem_filter.mp h).1⟩

end Steady

end AgoricSdk.Liveslots
