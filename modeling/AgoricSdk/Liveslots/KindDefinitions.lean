import AgoricSdk.Liveslots.ExportSteps

/-!
The records of the export status when kinds are defined: for the first time, and
anew, with more facets, by a later incarnation of the vat.
-/

namespace AgoricSdk.Liveslots

open SwingSet StateProgram KeyWalk

variable {s t u : Vat} {c : Cohort} {facet : Option Nat} {kindInfo : KindInfo}
  {status : ExportStatus} {kindID : Nat}

section Definitions

/-- A later definition of the kind may have more facets. -/
structure ExtendedBy (kindInfo kindInfo' : KindInfo) : Prop where
  durable : kindInfo'.durable = kindInfo.durable
  facetNames : kindInfo'.facetNames = kindInfo.facetNames ∨
    ∃ oldFacetNames newFacetNames, kindInfo.facetNames = some oldFacetNames ∧
      kindInfo'.facetNames = some (oldFacetNames ++ newFacetNames)

variable {kindInfo' : KindInfo}

theorem ExtendedBy.refl (kindInfo : KindInfo) : ExtendedBy kindInfo kindInfo := ⟨rfl, Or.inl rfl⟩

theorem ExtendedBy.hasFacet (h : ExtendedBy kindInfo kindInfo') (hfacet : kindInfo.hasFacet facet) :
    kindInfo'.hasFacet facet := by
  unfold KindInfo.hasFacet at hfacet ⊢
  rcases h.facetNames with heq | ⟨old, new, hold, hnew⟩
  · rw [heq]
    exact hfacet
  · rw [hold] at hfacet
    rw [hnew]
    obtain ⟨i, hi, rfl⟩ := hfacet
    refine ⟨i, ?_, rfl⟩
    rw [List.length_append]
    omega

theorem ExtendedBy.facetCount (h : ExtendedBy kindInfo kindInfo') :
    kindInfo.facetCount ≤ kindInfo'.facetCount := by
  unfold KindInfo.facetCount
  rcases h.facetNames with heq | ⟨old, new, hold, hnew⟩
  · rw [heq]
  · rw [hold, hnew]
    change old.length ≤ (old ++ new).length
    rw [List.length_append]
    omega

theorem ExtendedBy.new_facet (h : ExtendedBy kindInfo kindInfo')
    (hfacet : kindInfo'.hasFacet facet) (hnot : ¬ kindInfo.hasFacet facet) :
    kindInfo.facetCount ≤ facet.getD 0 := by
  unfold KindInfo.hasFacet at hfacet hnot
  unfold KindInfo.facetCount
  rcases h.facetNames with heq | ⟨old, new, hold, hnew⟩
  · rw [heq] at hfacet
    exact absurd hfacet hnot
  · rw [hnew] at hfacet
    rw [hold] at hnot ⊢
    obtain ⟨i, -, rfl⟩ := hfacet
    by_contra hlt
    exact hnot ⟨i, Nat.lt_of_not_le hlt, rfl⟩

/-- Kinds are defined, for the first time or anew, with more facets. -/
structure Extends (s t : Vat) : Prop where
  registered : Registered t
  held : ∀ c, .representative c none ∈ t.slotToVal → Made t c
  es : t.es = s.es
  clist : t.clist = s.clist
  scan : t.scan = s.scan
  stores : t.stores = s.stores
  collectionID : t.collectionID = s.collectionID
  exportID : s.exportID ≤ t.exportID
  old : ∀ kindID kindInfo, s.shape kindID = some kindInfo →
    ∃ kindInfo', t.shape kindID = some kindInfo' ∧ ExtendedBy kindInfo kindInfo'
  new : ∀ kindID kindInfo, s.shape kindID = none → t.shape kindID = some kindInfo →
    s.exportID ≤ kindID ∨ s.durableKinds.lookup kindID ≠ none
  undefined : ∀ kindID, kindID < s.exportID → t.shape kindID = none →
    s.durableKinds.lookup kindID = none → t.durableKinds.lookup kindID = none

theorem Mirrors.no_record (hs : Mirrors s) (hshape : s.shape c.kindID = none)
    (hnew : s.exportID ≤ c.kindID ∨ s.durableKinds.lookup c.kindID ≠ none) :
    s.es.lookup (.representative c none) = none := by
  cases hes : s.es.lookup (.representative c none) with
  | none => rfl
  | some es =>
    obtain ⟨-, hbound, hnone, -⟩ := hs.recorded c es hes
    rcases hnew with hle | hne
    · omega
    · exact absurd (hnone hshape) hne

theorem Mirrors.no_entry (hs : Mirrors s) (hshape : s.shape c.kindID = none) :
    s.clist.lookup (.representative c facet) = none := by
  cases hflag : s.clist.lookup (.representative c facet) with
  | none => rfl
  | some flag =>
    obtain ⟨kindInfo, hinfo, -⟩ := (hs.exported c facet flag hflag).kind
    rw [hshape] at hinfo
    cases hinfo

theorem Mirrors.extended (hs : Mirrors s) (h : Extends s t) : Mirrors t := by
  have hretiring : t.retiring = s.retiring := by rw [Vat.retiring, Vat.retiring, h.scan]
  have hletter : ∀ c facet, t.letter c facet = s.letter c facet := fun c facet => by
    rw [Vat.letter, Vat.letter, Vat.record, Vat.record, h.es]
  constructor
  case toRegistered => exact h.registered
  case toGrounded =>
    constructor
    case held => exact h.held
    case stores =>
      rw [h.stores, h.collectionID]
      exact hs.stores
    case exported =>
      intro c facet flag hflag
      rw [h.clist] at hflag
      have hknown := hs.exported c facet flag hflag
      obtain ⟨kindInfo, hinfo, hdurable, hfacet⟩ := hknown.kind
      obtain ⟨kindInfo', hinfo', hext⟩ := h.old _ _ hinfo
      refine ⟨fun hc => h.collectionID ▸ hknown.store hc, kindInfo', hinfo', ?_,
        hext.hasFacet hfacet⟩
      rw [hext.durable, hdurable]
    case recorded =>
      intro c es hlookup
      rw [h.es] at hlookup
      obtain ⟨hstore, hbound, hnone, hlength⟩ := hs.recorded c es hlookup
      refine ⟨fun hc => h.collectionID ▸ hstore hc, Nat.lt_of_lt_of_le hbound h.exportID, ?_, ?_⟩
      · intro hundefined
        apply h.undefined c.kindID hbound hundefined
        apply hnone
        cases hold : s.shape c.kindID with
        | none => rfl
        | some kindInfo =>
          obtain ⟨kindInfo', hinfo', -⟩ := h.old _ _ hold
          rw [hundefined] at hinfo'
          cases hinfo'
      · intro kindInfo' hinfo'
        cases hold : s.shape c.kindID with
        | none =>
          have hno := hs.no_record hold (h.new _ _ hold hinfo')
          rw [hlookup] at hno
          cases hno
        | some kindInfo =>
          obtain ⟨info, hinfo, hext⟩ := h.old _ _ hold
          rw [hinfo'] at hinfo
          cases hinfo
          exact Nat.le_trans (hlength kindInfo hold) hext.facetCount
  case retired =>
    rw [hretiring, h.es]
    exact hs.retired
  case mirrored =>
    intro c facet kindInfo' hc hfacet
    rw [h.clist, hletter]
    cases hold : s.shape c.kindID with
    | none =>
      left
      rw [hs.no_entry hold, letter_of_no_record (hs.no_record hold (h.new _ _ hold hc.shape))]
      rfl
    | some kindInfo =>
      obtain ⟨info, hinfo, hext⟩ := h.old _ _ hold
      rw [hc.shape] at hinfo
      cases hinfo
      have hcs : Current s c kindInfo := ⟨hold, hext.durable ▸ hc.durable, h.stores ▸ hc.store⟩
      by_cases hhas : kindInfo.hasFacet facet
      · refine (hs.mirrored c facet kindInfo hcs hhas).imp id fun hp => ?_
        exact ⟨h.es ▸ hp.es, h.clist ▸ hp.clist, by rw [hretiring, h.clist]; exact hp.retiring⟩
      · -- a new facet has no letter yet
        left
        have hlength : (s.record c).length ≤ facet.getD 0 :=
          Nat.le_trans (hs.bounded.record hold) (hext.new_facet hfacet hhas)
        rw [hs.not_exported hold hhas, Vat.letter, List.getD_eq_getElem?_getD,
          List.getElem?_eq_none hlength]
        rfl

theorem Mirrors.fresh_kindID (hs : Mirrors s) :
    s.kindInfoTable.lookup s.exportID = none ∧ s.durableKinds.lookup s.exportID = none := by
  constructor
  · cases hinfo : s.kindInfoTable.lookup s.exportID with
    | none => rfl
    | some kindInfo =>
      rcases hs.defined _ _ hinfo with hinitial | hd
      · exact absurd (initialKinds_bound hinitial) (Nat.not_lt_of_le hs.exportID)
      · exact absurd hd.bound (Nat.lt_irrefl _)
  · cases hdesc : s.durableKinds.lookup s.exportID with
    | none => rfl
    | some desc =>
      exact absurd (hs.described _ (Table.has_of_lookup hdesc)).2 (Nat.lt_irrefl _)

/-- One kind that this incarnation has not defined yet, or its descriptor, changes. -/
structure Redefines (kindID : Nat) (s t : Vat) : Prop where
  es : t.es = s.es
  clist : t.clist = s.clist
  scan : t.scan = s.scan
  stores : t.stores = s.stores
  collectionID : t.collectionID = s.collectionID
  exportID : s.exportID ≤ t.exportID
  undefined : s.kindInfoTable.lookup kindID = none
  numbered : 10 ≤ kindID ∧ kindID < t.exportID
  kindInfoTable : ∀ other, other ≠ kindID →
    t.kindInfoTable.lookup other = s.kindInfoTable.lookup other
  durableKinds : ∀ other, other ≠ kindID →
    t.durableKinds.lookup other = s.durableKinds.lookup other
  definedDurableKinds : s.definedDurableKinds ⊆ t.definedDurableKinds
  held : ∀ c, .representative c none ∈ t.slotToVal →
    .representative c none ∈ s.slotToVal ∨ c.isDurable = true ∧ c.kindID = kindIDID
  defined : ∀ kindInfo, t.kindInfoTable.lookup kindID = some kindInfo → Defined t kindID kindInfo
  fresh_or_described : s.exportID ≤ kindID ∨ s.durableKinds.lookup kindID ≠ none ∧
    t.kindInfoTable.lookup kindID ≠ none ∧ ∀ kindInfo, s.shape kindID = some kindInfo →
      ∃ kindInfo', t.shape kindID = some kindInfo' ∧ ExtendedBy kindInfo kindInfo'

theorem Mirrors.redefined (hs : Mirrors s) (kindID : Nat) (h : Redefines kindID s t) :
    Mirrors t := by
  have hshape : ∀ other, other ≠ kindID → t.shape other = s.shape other := fun other hne => by
    rw [Vat.shape, Vat.shape, h.kindInfoTable other hne, h.durableKinds other hne]
  have hold : ∀ other kindInfo, s.kindInfoTable.lookup other = some kindInfo →
      other ≠ kindID ∧ t.kindInfoTable.lookup other = some kindInfo := by
    intro other kindInfo hinfo
    have hne : other ≠ kindID := by
      rintro rfl
      rw [h.undefined] at hinfo
      cases hinfo
    exact ⟨hne, (h.kindInfoTable other hne).trans hinfo⟩
  have hinitialized : t.initialized :=
    fun other kindInfo hinfo => (hold other kindInfo (hs.initialized other kindInfo hinfo)).2
  apply hs.extended
  constructor
  case registered =>
    constructor
    case initialized => exact hinitialized
    case exportID => exact Nat.le_trans hs.exportID h.exportID
    case defined =>
      intro other kindInfo hinfo
      by_cases hne : other = kindID
      · subst hne
        exact Or.inr (h.defined kindInfo hinfo)
      · rw [h.kindInfoTable other hne] at hinfo
        refine (hs.defined other kindInfo hinfo).imp id fun hd => ?_
        refine ⟨hd.least, Nat.lt_of_lt_of_le hd.bound h.exportID, fun hdurable => ?_, ?_⟩
        · rw [h.durableKinds other hne]
          exact (hd.durable hdurable).imp (fun h' => h.definedDurableKinds h') id
        · rw [h.durableKinds other hne]
          exact hd.virtual
    case described =>
      intro other hhas
      by_cases hne : other = kindID
      · subst hne
        exact h.numbered
      · have hold : s.durableKinds.has other = true := by
          rw [Table.has, ← h.durableKinds other hne]
          exact hhas
        exact (hs.described other hold).imp id fun hlt => Nat.lt_of_lt_of_le hlt h.exportID
  case held =>
    intro c hmem
    rcases h.held c hmem with hin | ⟨hdurable, hkind⟩
    · have hmade := hs.held c hin
      obtain ⟨kindInfo, hinfo, heq⟩ := hmade.kind
      exact ⟨⟨kindInfo, (hold _ _ hinfo).2, heq⟩, fun hc => h.collectionID ▸ hmade.store hc⟩
    · refine ⟨⟨⟨.kindHandle, true, none⟩, ?_, hdurable.symm⟩, fun hc => ?_⟩
      · rw [hkind]
        exact hinitialized _ _ (by decide)
      · exact absurd hdurable (by rw [hc.1]; exact Bool.false_ne_true)
  case es => exact h.es
  case clist => exact h.clist
  case scan => exact h.scan
  case stores => exact h.stores
  case collectionID => exact h.collectionID
  case exportID => exact h.exportID
  case old =>
    intro other kindInfo hinfo
    by_cases hne : other = kindID
    · subst hne
      rcases h.fresh_or_described with hle | ⟨-, -, hext⟩
      · exact absurd (hs.shape_bound hinfo) (Nat.not_lt_of_le hle)
      · exact hext kindInfo hinfo
    · exact ⟨kindInfo, (hshape other hne).trans hinfo, ExtendedBy.refl kindInfo⟩
  case new =>
    intro other kindInfo hnone hsome
    by_cases hne : other = kindID
    · subst hne
      exact h.fresh_or_described.imp id And.left
    · rw [hshape other hne, hnone] at hsome
      cases hsome
  case undefined =>
    intro other hlt hnone hdesc
    by_cases hne : other = kindID
    · subst hne
      rcases h.fresh_or_described with hle | ⟨hdescribed, -, -⟩
      · exact absurd hlt (Nat.not_lt_of_le hle)
      · exact absurd hdesc hdescribed
    · rw [h.durableKinds other hne]
      exact hdesc

theorem Mirrors.allocated (hs : Mirrors s) : Mirrors { s with exportID := s.exportID + 1 } := by
  apply hs.redefined s.exportID
  have hnumbered := hs.exportID
  constructor
  case undefined => exact hs.fresh_kindID.1
  case numbered => exact ⟨hnumbered, Nat.lt_succ_self _⟩
  case exportID => exact Nat.le_succ _
  case definedDurableKinds => exact fun _ h => h
  case held => exact fun _ h => Or.inl h
  case defined =>
    intro kindInfo hinfo
    change s.kindInfoTable.lookup _ = _ at hinfo
    rw [hs.fresh_kindID.1] at hinfo
    cases hinfo
  case fresh_or_described => exact Or.inl (Nat.le_refl _)
  all_goals first | rfl | exact fun _ _ => rfl

theorem defineKind_mirrors (hs : Mirrors s) (multifaceted : Bool) (behavior : Behavior) :
    Wp (defineKind multifaceted behavior) (fun _ t => Mirrors t) (fun _ t => Mirrors t) s := by
  let s' : Vat :=
    { s with
      exportID := s.exportID + 1
      nextInstanceIDs := s.nextInstanceIDs.insert s.exportID 1 }
  have hs' : Mirrors s' := hs.allocated.steady (steady_of_same rfl)
  unfold defineKind allocateExportID
  simp only [wp_bind, wp_get, wp_modify, wp_pure]
  apply wp_mono (wp_of_moves SameCohorts (proposedFacetNames multifaceted behavior) s')
  · intro proposed u hsame
    let kindInfo : KindInfo := ⟨.storedVO, false, proposed⟩
    have hdefined : Mirrors
        { s' with kindInfoTable := s.kindInfoTable.insert s.exportID kindInfo } := by
      apply hs.redefined s.exportID
      have hnumbered := hs.exportID
      constructor
      case undefined => exact hs.fresh_kindID.1
      case numbered => exact ⟨hnumbered, Nat.lt_succ_self _⟩
      case exportID => exact Nat.le_succ _
      case kindInfoTable =>
        intro other hne
        exact (Table.lookup_insert ..).trans (if_neg hne)
      case definedDurableKinds => exact fun _ h => h
      case held => exact fun _ h => Or.inl h
      case defined =>
        intro info hinfo
        change (s.kindInfoTable.insert s.exportID kindInfo).lookup _ = _ at hinfo
        rw [Table.lookup_insert, if_pos rfl] at hinfo
        cases hinfo
        refine ⟨hnumbered, Nat.lt_succ_self _, fun h => ?_, fun _ => hs.fresh_kindID.2⟩
        cases h
      case fresh_or_described => exact Or.inl (Nat.le_refl _)
      all_goals first | rfl | exact fun _ _ => rfl
    refine hdefined.steady (steady_of_same ?_)
    simp only [SameCohorts, Unchanged, Vat.cohortView, Vat.exportView, Prod.mk.injEq,
      ExportView.mk.injEq, s', kindInfo] at hsame ⊢
    simp only [hsame, and_self]
  · exact fun _ u hsame => hs'.steady (steady_of_same hsame)

theorem makeKindHandle_mirrors (hs : Mirrors s) :
    Wp makeKindHandle (fun _ t => Mirrors t) (fun _ t => Mirrors t) s := by
  unfold makeKindHandle allocateExportID registerValue
  simp only [wp_bind, wp_get, wp_modify, wp_pure]
  apply hs.redefined s.exportID
  have hnumbered := hs.exportID
  constructor
  case undefined => exact hs.fresh_kindID.1
  case numbered => exact ⟨hnumbered, Nat.lt_succ_self _⟩
  case exportID => exact Nat.le_succ _
  case durableKinds =>
    intro other hne
    exact (Table.lookup_insert ..).trans (if_neg hne)
  case definedDurableKinds => exact fun _ h => h
  case held =>
    intro c hmem
    rcases mem_addTo.mp hmem with heq | hold
    · cases heq
      exact Or.inr ⟨rfl, rfl⟩
    · exact Or.inl hold
  case defined =>
    intro kindInfo hinfo
    change s.kindInfoTable.lookup _ = _ at hinfo
    rw [hs.fresh_kindID.1] at hinfo
    cases hinfo
  case fresh_or_described => exact Or.inl (Nat.le_refl _)
  all_goals first | rfl | exact fun _ _ => rfl

theorem checkAndUpdateFacetiousness_spec {desc updated : DurableKindDescriptor}
    {proposed : Option (List FacetName)}
    (h : checkAndUpdateFacetiousness desc proposed = .ok updated) :
    updated.shape = some ⟨.storedVO, true, updated.facets⟩ ∧
      ∀ kindInfo, desc.shape = some kindInfo →
        ExtendedBy kindInfo ⟨.storedVO, true, updated.facets⟩ := by
  unfold checkAndUpdateFacetiousness at h
  cases proposed with
  | none =>
    cases hfacets : desc.facets with
    | none =>
      simp [hfacets, Pure.pure, Except.pure] at h
      subst h
      refine ⟨if_pos (Or.inl rfl), fun kindInfo hinfo => ?_⟩
      rw [DurableKindDescriptor.shape, hfacets] at hinfo
      split at hinfo
      · cases hinfo
        exact ExtendedBy.refl _
      · cases hinfo
    | some facets =>
      simp [hfacets, Bind.bind, Except.bind, throw, throwThe, MonadExceptOf.throw] at h
  | some proposedFacetNames =>
    cases hunfaceted : desc.unfaceted with
    | true => simp [hunfaceted, Bind.bind, Except.bind, throw, throwThe, MonadExceptOf.throw] at h
    | false =>
      simp [hunfaceted, Bind.bind, Except.bind, Pure.pure, Except.pure] at h
      split at h
      · cases h
      · cases h
        refine ⟨if_pos (Or.inr rfl), fun kindInfo hinfo => ?_⟩
        unfold DurableKindDescriptor.shape at hinfo
        split at hinfo
        case isFalse => cases hinfo
        case isTrue hshape =>
          cases hinfo
          cases hfacets : desc.facets with
          | none => simp [hunfaceted, hfacets] at hshape
          | some facets => exact ⟨rfl, Or.inr ⟨facets, _, rfl, rfl⟩⟩

theorem Mirrors.durableKind {desc updated : DurableKindDescriptor} (hs : Mirrors s)
    (hdesc : s.durableKinds.lookup kindID = some desc) (hundefined : kindID ∉ s.definedDurableKinds)
    {proposed : Option (List FacetName)}
    (hcheck : checkAndUpdateFacetiousness desc proposed = .ok updated) (stateShape : CapData) :
    Mirrors { s with
      durableKinds := s.durableKinds.insert kindID { updated with stateShape := stateShape }
      kindInfoTable := s.kindInfoTable.insert kindID ⟨.storedVO, true, updated.facets⟩
      definedDurableKinds := kindID :: s.definedDurableKinds } := by
  obtain ⟨hshape, hext⟩ := checkAndUpdateFacetiousness_spec hcheck
  have hnumbered := hs.described kindID (Table.has_of_lookup hdesc)
  have hnone : s.kindInfoTable.lookup kindID = none := by
    cases hinfo : s.kindInfoTable.lookup kindID with
    | none => rfl
    | some kindInfo =>
      rcases hs.defined _ _ hinfo with hinitial | hd
      · exact absurd (initialKinds_bound hinitial) (Nat.not_lt_of_le hnumbered.1)
      · cases hdurable : kindInfo.durable with
        | true => exact absurd (hd.durable hdurable).1 hundefined
        | false =>
          rw [hd.virtual hdurable] at hdesc
          cases hdesc
  apply hs.redefined kindID
  constructor
  case undefined => exact hnone
  case numbered => exact hnumbered
  case exportID => exact Nat.le_refl _
  case kindInfoTable =>
    intro other hne
    exact (Table.lookup_insert ..).trans (if_neg hne)
  case durableKinds =>
    intro other hne
    exact (Table.lookup_insert ..).trans (if_neg hne)
  case definedDurableKinds => exact List.subset_cons_self _ _
  case held => exact fun _ h => Or.inl h
  case defined =>
    intro kindInfo hinfo
    change (s.kindInfoTable.insert kindID _).lookup kindID = _ at hinfo
    rw [Table.lookup_insert, if_pos rfl] at hinfo
    cases hinfo
    refine ⟨hnumbered.1, hnumbered.2, fun _ => ⟨List.mem_cons_self .., ?_⟩, fun h => ?_⟩
    · exact ⟨_, (Table.lookup_insert ..).trans (if_pos rfl), hshape⟩
    · cases h
  case fresh_or_described =>
    right
    have hinfo : (s.kindInfoTable.insert kindID ⟨.storedVO, true, updated.facets⟩).lookup kindID =
        some ⟨.storedVO, true, updated.facets⟩ :=
      (Table.lookup_insert ..).trans (if_pos rfl)
    refine ⟨fun h => ?_, fun h => ?_, fun kindInfo hold => ?_⟩
    · rw [hdesc] at h
      cases h
    · rw [hinfo] at h
      cases h
    · rw [Vat.shape, hnone, Option.none_or, hdesc] at hold
      refine ⟨⟨.storedVO, true, updated.facets⟩, ?_, hext kindInfo hold⟩
      rw [Vat.shape, hinfo, Option.some_or]
  all_goals rfl

theorem defineDurableKind_mirrors (hs : Mirrors s) (kindID : Nat) (multifaceted : Bool)
    (behavior : Behavior) (stateShape : CapData) :
    Wp (defineDurableKind kindID multifaceted behavior stateShape) (fun _ t => Mirrors t)
      (fun _ t => Mirrors t) s := by
  have hkeep : ∀ {t}, SameCohorts s t → Mirrors t := fun h => hs.steady (steady_of_same h)
  unfold defineDurableKind registerKind
  simp only [wp_bind, wp_get]
  apply wp_mono (wp_required _ _)
  case hE =>
    rintro _ _ rfl
    exact hs
  rintro desc _ ⟨hdesc, rfl⟩
  apply wp_mono (wp_insist _)
  case hE =>
    rintro _ _ ⟨-, rfl⟩
    exact hs
  rintro _ _ ⟨hundefined, rfl⟩
  apply wp_mono (wp_of_moves SameCohorts (proposedFacetNames multifaceted behavior) s)
  case hE => exact fun _ _ h => hkeep h
  intro proposed s₁ h₁
  cases hcheck : checkAndUpdateFacetiousness desc proposed with
  | error fault => exact hkeep h₁
  | ok updated =>
    change Wp (pure updated) _ _ s₁
    rw [wp_pure]
    apply wp_mono (wp_of_moves SameCohorts (insistDurableCapdata stateShape) s₁)
    case hE => exact fun _ _ h => hkeep (trans_of SameCohorts h₁ h)
    intro _ s₂ h₂
    apply wp_mono (wp_of_moves SameCohorts
      (updateReferenceCounts desc.stateShape.slots stateShape.slots) s₂)
    case hE => exact fun _ _ h => hkeep (trans_of SameCohorts (trans_of SameCohorts h₁ h₂) h)
    intro _ s₃ h₃
    have hsame : SameCohorts s s₃ := trans_of SameCohorts (trans_of SameCohorts h₁ h₂) h₃
    simp only [wp_modify]
    refine (hs.durableKind hdesc hundefined hcheck stateShape).steady (steady_of_same ?_)
    simp only [SameCohorts, Unchanged, Vat.cohortView, Vat.exportView, Prod.mk.injEq,
      ExportView.mk.injEq] at hsame ⊢
    simp only [hsame, and_self]

end Definitions

section Upgrade

theorem Registered.shape_of_upgraded (hs : Registered s)
    (h : s.upgraded.shape kindID = some kindInfo) : s.shape kindID = some kindInfo := by
  change (initialKinds.lookup kindID).or ((s.durableKinds.lookup kindID).bind (·.shape)) = _ at h
  rw [Vat.shape]
  rcases Option.or_eq_some_iff.mp h with hinitial | ⟨hnone, hdesc⟩
  · rw [hs.initialized _ _ hinitial, Option.some_or]
  · cases hinfo : s.kindInfoTable.lookup kindID with
    | none => exact hdesc
    | some info =>
      rcases hs.defined _ _ hinfo with hinitial | hd
      · rw [hnone] at hinitial
        cases hinitial
      · obtain ⟨desc, hlookup, hshape⟩ := Option.bind_eq_some_iff.mp hdesc
        cases hdurable : info.durable with
        | true =>
          obtain ⟨-, desc', hlookup', hshape'⟩ := hd.durable hdurable
          rw [hlookup] at hlookup'
          cases hlookup'
          rw [Option.some_or, ← hshape', hshape]
        | false =>
          rw [hd.virtual hdurable] at hlookup
          cases hlookup

theorem Registered.upgraded_shape (hs : Registered s) (h : s.shape kindID = some kindInfo)
    (hdurable : kindInfo.durable = true) : s.upgraded.shape kindID = some kindInfo := by
  change (initialKinds.lookup kindID).or ((s.durableKinds.lookup kindID).bind (·.shape)) = _
  rw [Vat.shape, Option.or_eq_some_iff] at h
  rcases h with hinfo | ⟨hnone, hdesc⟩
  · rcases hs.defined _ _ hinfo with hinitial | hd
    · rw [hinitial, Option.some_or]
    · obtain ⟨-, desc, hlookup, hshape⟩ := hd.durable hdurable
      have hnone : initialKinds.lookup kindID = none := by
        cases hinitial : initialKinds.lookup kindID with
        | none => rfl
        | some info => exact absurd (initialKinds_bound hinitial) (Nat.not_lt_of_le hd.least)
      rw [hnone, Option.none_or, hlookup, Option.bind_some, hshape]
  · cases hinitial : initialKinds.lookup kindID with
    | none => exact hdesc
    | some info =>
      rw [hs.initialized _ _ hinitial] at hnone
      cases hnone

theorem initialKinds_virtual {kindID : Nat} (h : initialKinds.lookup kindID = some kindInfo)
    (hdurable : kindInfo.durable = false) : ∃ kind ∈ storeKinds, kindID = kind.kindID := by
  have hbound := initialKinds_bound h
  revert hdurable
  interval_cases kindID <;> revert h <;> revert kindInfo <;> decide

theorem DurableKindDescriptor.shape_durable {desc : DurableKindDescriptor}
    (h : desc.shape = some kindInfo) : kindInfo.durable = true := by
  unfold DurableKindDescriptor.shape at h
  split at h
  · cases h
    rfl
  · cases h

theorem Mirrors.upgraded (hs : Mirrors s) (hscan : s.scan = none) : Mirrors s.upgraded := by
  have hclist : ∀ v, s.upgraded.clist.lookup v =
      if v.survives then s.clist.lookup v else none := by
    intro v
    apply (Table.lookup_filter ..).trans
    cases v.survives <;> cases s.clist.lookup v <;> rfl
  have hstores : ∀ collectionID kind, s.upgraded.stores.lookup collectionID = some kind →
      s.stores.lookup collectionID = some kind ∧ kind.durable = true := by
    intro collectionID kind h
    change (s.stores.filter fun _ kind => kind.durable).lookup collectionID = _ at h
    rw [Table.lookup_filter, Option.filter_eq_some_iff] at h
    exact h
  have hretiring : ∀ v, v ∉ s.retiring := fun v => by
    rw [Vat.retiring, hscan]
    exact List.not_mem_nil
  constructor
  case toRegistered =>
    constructor
    case initialized => exact fun _ _ h => h
    case exportID => exact hs.exportID
    case defined => exact fun _ _ h => Or.inl h
    case described => exact hs.described
  case toGrounded =>
    constructor
    case held =>
      intro c hmem
      change _ ∈ [baggageRef, rootObject] at hmem
      rw [List.mem_cons, List.mem_singleton] at hmem
      rcases hmem with heq | heq
      · cases heq
        refine ⟨⟨_, initialKinds_store .scalarDurableMapStore, rfl⟩, fun hc => ?_⟩
        cases hc.1
      · cases heq
    case stores => exact fun collectionID kind h => hs.stores _ _ (hstores _ _ h).1
    case exported =>
      intro c facet flag hflag
      rw [hclist] at hflag
      split at hflag
      case isFalse => cases hflag
      case isTrue hdurable =>
        obtain ⟨kindInfo, hinfo, heq, hfacet⟩ := (hs.exported c facet flag hflag).kind
        refine ⟨(hs.exported c facet flag hflag).store, kindInfo, ?_, heq, hfacet⟩
        exact hs.upgraded_shape hinfo (heq.trans hdurable)
    case recorded =>
      intro c es hlookup
      obtain ⟨hstore, hbound, hnone, hlength⟩ := hs.recorded c es hlookup
      refine ⟨hstore, hbound, fun hundefined => ?_, fun kindInfo hinfo =>
        hlength kindInfo (hs.shape_of_upgraded hinfo)⟩
      cases hshape : s.shape c.kindID with
      | none => exact hnone hshape
      | some kindInfo =>
        cases hdurable : kindInfo.durable with
        | true =>
          rw [hs.upgraded_shape hshape hdurable] at hundefined
          cases hundefined
        | false =>
          rw [Vat.shape, Option.or_eq_some_iff] at hshape
          rcases hshape with hinfo | ⟨-, hdesc⟩
          · rcases hs.defined _ _ hinfo with hinitial | hd
            · change (initialKinds.lookup c.kindID).or _ = none at hundefined
              rw [hinitial] at hundefined
              cases hundefined
            · exact hd.virtual hdurable
          · obtain ⟨desc, -, hshape⟩ := Option.bind_eq_some_iff.mp hdesc
            rw [desc.shape_durable hshape] at hdurable
            cases hdurable
  case retired =>
    exact fun c facet hmem => absurd hmem (hretiring _)
  case mirrored =>
    intro c facet kindInfo hc hfacet
    cases hdurable : c.isDurable with
    | true =>
      have hcs : Current s c kindInfo := by
        refine ⟨hs.shape_of_upgraded hc.shape, hc.durable, fun hstore => ?_⟩
        rw [hstore.1] at hdurable
        cases hdurable
      left
      rw [hclist]
      change (if c.isDurable = true then _ else _) = _
      rw [if_pos hdurable]
      rcases hs.mirrored c facet kindInfo hcs hfacet with heq | hp
      · exact heq
      · exact hp.retiring.elim (fun h => absurd h (hretiring _)) fun h => absurd h.1 (hretiring _)
    | false =>
      have hinfo := hc.durable.trans hdurable
      rcases Option.or_eq_some_iff.mp hc.shape with hinitial | ⟨-, hdesc⟩
      · -- a collection that was left behind
        obtain ⟨kind, hlookup, hkind⟩ := hc.store ⟨hdurable, initialKinds_virtual hinitial hinfo⟩
        have hdurable' : c.isDurable = true := hkind ▸ (hstores _ _ hlookup).2
        rw [hdurable] at hdurable'
        cases hdurable'
      · obtain ⟨desc, -, hshape⟩ := Option.bind_eq_some_iff.mp hdesc
        rw [desc.shape_durable hshape] at hinfo
        cases hinfo

end Upgrade

end AgoricSdk.Liveslots
