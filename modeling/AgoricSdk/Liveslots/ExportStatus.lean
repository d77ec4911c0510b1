import AgoricSdk.Liveslots.CohortFrame

/-!
The export status of virtual objects. The letters of a `vom.es.` record mirror
what the kernel has of the facets of a cohort, and the functions that write the
record write the letters of the references they are given.
-/

namespace AgoricSdk.Liveslots

open SwingSet StateProgram KeyWalk

section Mirror

/-- The number of letters in a record that is up to date. -/
def KindInfo.facetCount (kindInfo : KindInfo) : Nat :=
  match kindInfo.facetNames with
  | some facetNames => facetNames.length
  | none => 1

/-- A durable kind that was defined in some incarnation. -/
def DurableKindDescriptor.shape (desc : DurableKindDescriptor) : Option KindInfo :=
  if desc.unfaceted = true ∨ desc.facets.isSome = true then some ⟨.storedVO, true, desc.facets⟩
  else none

/-- The facets of a kind, by its definition in this incarnation, or in an earlier one. -/
def Vat.shape (s : Vat) (kindID : Nat) : Option KindInfo :=
  (s.kindInfoTable.lookup kindID).or ((s.durableKinds.lookup kindID).bind (·.shape))

def Vat.record (s : Vat) (c : Cohort) : List ExportStatus :=
  (s.es.lookup (.representative c none)).getD []

/-- The letter of a facet, or of an unfaceted object. -/
def Vat.letter (s : Vat) (c : Cohort) (facet : Option Nat) : ExportStatus :=
  (s.record c).getD (facet.getD 0) .none

/-- The entry in the kernel's table that a letter stands for. -/
def ExportStatus.flag : ExportStatus → Option Bool
  | .none => Option.none
  | .recognizable => some false
  | .reachable => some true

/-- What the scan under way is to tell the kernel. -/
def Vat.retiring (s : Vat) : List VRef := (s.scan.map (·.exportsToRetire)).getD []

/-- The cohort was deleted by the scan under way, and the kernel does not know yet. -/
structure Pending (s : Vat) (c : Cohort) (facet : Option Nat) : Prop where
  es : s.es.lookup (.representative c none) = none
  clist : s.clist.lookup (.representative c facet) = some false
  retiring : .representative c facet ∈ s.retiring ∨
    .representative c none ∈ s.retiring ∧ s.clist.lookup (.representative c none) = none

/-- A cohort of the kind that was not left behind by an upgrade. -/
structure Current (s : Vat) (c : Cohort) (kindInfo : KindInfo) : Prop where
  shape : s.shape c.kindID = some kindInfo
  durable : kindInfo.durable = c.isDurable
  store : c.isVirtualStore → ∃ kind, s.stores.lookup c.subid = some kind ∧ kind.vobjID c.subid = c

/-- The definition of a kind by user code. -/
structure Defined (s : Vat) (kindID : Nat) (kindInfo : KindInfo) : Prop where
  least : 10 ≤ kindID
  bound : kindID < s.exportID
  durable : kindInfo.durable = true → kindID ∈ s.definedDurableKinds ∧
    ∃ desc, s.durableKinds.lookup kindID = some desc ∧ desc.shape = some kindInfo
  virtual : kindInfo.durable = false → s.durableKinds.lookup kindID = none

/-- What the kernel knows of is a facet of a cohort. -/
structure Known (s : Vat) (c : Cohort) (facet : Option Nat) : Prop where
  store : c.isVirtualStore → c.subid < s.collectionID
  kind : ∃ kindInfo, s.shape c.kindID = some kindInfo ∧ kindInfo.durable = c.isDurable ∧
    kindInfo.hasFacet facet

/-- The kinds of this incarnation, and the durable ones of all incarnations. -/
structure Registered (s : Vat) : Prop where
  initialized : s.initialized
  exportID : 10 ≤ s.exportID
  defined : ∀ kindID kindInfo, s.kindInfoTable.lookup kindID = some kindInfo →
    initialKinds.lookup kindID = some kindInfo ∨ Defined s kindID kindInfo
  described : ∀ kindID, s.durableKinds.has kindID = true → 10 ≤ kindID ∧ kindID < s.exportID

/-- What the kernel or a record knows of is a facet of a cohort that was made. -/
structure Grounded (s : Vat) : Prop where
  held : ∀ c, .representative c none ∈ s.slotToVal → Made s c
  stores : ∀ collectionID kind, s.stores.lookup collectionID = some kind →
    collectionID < s.collectionID
  exported : ∀ c facet flag, s.clist.lookup (.representative c facet) = some flag →
    Known s c facet
  recorded : ∀ c es, s.es.lookup (.representative c none) = some es →
    (c.isVirtualStore → c.subid < s.collectionID) ∧ c.kindID < s.exportID ∧
      (s.shape c.kindID = none → s.durableKinds.lookup c.kindID = none) ∧
      ∀ kindInfo, s.shape c.kindID = some kindInfo → es.length ≤ kindInfo.facetCount

/-- The records of the export status mirror the kernel's table. -/
structure Mirrors (s : Vat) : Prop extends Registered s, Grounded s where
  retired : ∀ c facet, .representative c facet ∈ s.retiring →
    s.es.lookup (.representative c none) = none
  mirrored : ∀ c facet kindInfo, Current s c kindInfo → kindInfo.hasFacet facet →
    s.clist.lookup (.representative c facet) = (s.letter c facet).flag ∨ Pending s c facet

variable {s t : Vat} {c : Cohort} {facet : Option Nat} {kindInfo : KindInfo}

/-- What tells which kinds there are. -/
@[reducible] def Vat.kindView (s : Vat) :
    Table Nat KindInfo × Table Nat DurableKindDescriptor × Nat × List Nat :=
  ⟨s.kindInfoTable, s.durableKinds, s.exportID, s.definedDurableKinds⟩

theorem shape_congr (h : t.kindView = s.kindView) (kindID : Nat) :
    t.shape kindID = s.shape kindID := by
  simp only [Vat.kindView, Prod.mk.injEq] at h
  rw [Vat.shape, Vat.shape, h.1, h.2.1]

theorem Registered.congr (hs : Registered s) (h : t.kindView = s.kindView) : Registered t := by
  simp only [Vat.kindView, Prod.mk.injEq] at h
  obtain ⟨hkinds, hdescs, hexportID, hdefined⟩ := h
  constructor
  case initialized =>
    intro kindID kindInfo hinfo
    rw [hkinds]
    exact hs.initialized kindID kindInfo hinfo
  case exportID =>
    rw [hexportID]
    exact hs.exportID
  case defined =>
    intro kindID kindInfo hinfo
    rw [hkinds] at hinfo
    refine (hs.defined kindID kindInfo hinfo).imp id fun hd => ?_
    constructor
    · exact hd.least
    · exact hexportID ▸ hd.bound
    · rw [hdefined, hdescs]
      exact hd.durable
    · rw [hdescs]
      exact hd.virtual
  case described =>
    rw [hdescs, hexportID]
    exact hs.described

theorem initialKinds_bound {kindID : Nat} (h : initialKinds.lookup kindID = some kindInfo) :
    kindID < 10 := by
  by_contra hle
  have hne : ∀ n, n < 10 → kindID ≠ n := fun n hn heq => hle (heq ▸ hn)
  simp only [initialKinds, storeKinds, List.foldl, Table.lookup_insert, StoreKind.kindID,
    kindIDID, hne, Table.lookup_empty, Nat.reduceLT, if_false] at h
  cases h

theorem hasFacet_inj {f g : Option Nat} (hf : kindInfo.hasFacet f) (hg : kindInfo.hasFacet g)
    (h : f.getD 0 = g.getD 0) : f = g := by
  unfold KindInfo.hasFacet at hf hg
  cases hnames : kindInfo.facetNames with
  | none =>
    rw [hnames] at hf hg
    exact hf.trans hg.symm
  | some names =>
    rw [hnames] at hf hg
    obtain ⟨i, -, rfl⟩ := hf
    obtain ⟨j, -, rfl⟩ := hg
    exact congrArg some h

theorem hasFacet_lt (h : kindInfo.hasFacet facet) : facet.getD 0 < kindInfo.facetCount := by
  unfold KindInfo.hasFacet at h
  unfold KindInfo.facetCount
  cases hnames : kindInfo.facetNames with
  | none =>
    rw [hnames] at h
    rw [h]
    exact Nat.one_pos
  | some names =>
    rw [hnames] at h
    obtain ⟨i, hi, rfl⟩ := h
    exact hi

theorem exists_hasFacet {i : Nat} (h : i < kindInfo.facetCount) :
    ∃ facet, kindInfo.hasFacet facet ∧ facet.getD 0 = i := by
  unfold KindInfo.facetCount at h
  unfold KindInfo.hasFacet
  cases hnames : kindInfo.facetNames with
  | none =>
    rw [hnames] at h
    exact ⟨none, rfl, (Nat.lt_one_iff.mp h).symm⟩
  | some names =>
    rw [hnames] at h
    exact ⟨some i, ⟨i, h, rfl⟩, rfl⟩

theorem letter_of_no_record (h : s.es.lookup (.representative c none) = none) :
    s.letter c facet = .none := by
  rw [Vat.letter, Vat.record, h]
  exact List.getD_nil

theorem Registered.shape_bound (hs : Registered s) {kindID : Nat}
    (h : s.shape kindID = some kindInfo) : kindID < s.exportID := by
  rw [Vat.shape, Option.or_eq_some_iff] at h
  rcases h with hinfo | ⟨-, hdesc⟩
  · rcases hs.defined kindID kindInfo hinfo with hinitial | hd
    · exact Nat.lt_of_lt_of_le (initialKinds_bound hinitial) hs.exportID
    · exact hd.bound
  · obtain ⟨desc, hlookup, -⟩ := Option.bind_eq_some_iff.mp hdesc
    exact (hs.described kindID (Table.has_of_lookup hlookup)).2

theorem Mirrors.steady (hs : Mirrors s) (h : Steady s t) : Mirrors t := by
  have hview := h.exports
  simp only [Vat.exportView, ExportView.mk.injEq] at hview
  obtain ⟨hes, hclist, hkinds, hdescs, hexportID, hscan, hdefined, -⟩ := hview
  have hview : t.kindView = s.kindView := by
    simp only [Vat.kindView, hkinds, hdescs, hexportID, hdefined]
  have hretiring : t.retiring = s.retiring := by rw [Vat.retiring, Vat.retiring, hscan]
  have hletter : ∀ c facet, t.letter c facet = s.letter c facet := fun c facet => by
    rw [Vat.letter, Vat.letter, Vat.record, Vat.record, hes]
  have hbound : ∀ {c : Cohort}, (c.isVirtualStore → c.subid < s.collectionID) →
      c.isVirtualStore → c.subid < t.collectionID :=
    fun hlt hc => Nat.lt_of_lt_of_le (hlt hc) h.collectionID
  constructor
  case toRegistered => exact hs.toRegistered.congr hview
  case toGrounded =>
    constructor
    case held =>
      intro c hmem
      exact (h.held c hmem).elim (fun hold => (hs.held c hold).steady h) id
    case stores =>
      intro collectionID kind hlookup
      rcases h.stores collectionID kind hlookup with hold | ⟨-, hlt⟩
      · exact Nat.lt_of_lt_of_le (hs.stores collectionID kind hold) h.collectionID
      · exact hlt
    case exported =>
      intro c facet flag hflag
      rw [hclist] at hflag
      have hknown := hs.exported c facet flag hflag
      exact ⟨hbound hknown.store, shape_congr hview _ ▸ hknown.kind⟩
    case recorded =>
      intro c es hlookup
      rw [hes] at hlookup
      rw [shape_congr hview, hdescs, hexportID]
      exact (hs.recorded c es hlookup).imp hbound id
  case retired =>
    rw [hretiring, hes]
    exact hs.retired
  case mirrored =>
    intro c facet kindInfo hc hfacet
    rw [hclist, hletter]
    have hcurrent : (c.isVirtualStore → ∃ kind, s.stores.lookup c.subid = some kind ∧
        kind.vobjID c.subid = c) →
        s.clist.lookup (.representative c facet) = (s.letter c facet).flag ∨ Pending t c facet := by
      intro hstore
      have hcs : Current s c kindInfo := ⟨shape_congr hview _ ▸ hc.shape, hc.durable, hstore⟩
      refine (hs.mirrored c facet kindInfo hcs hfacet).imp id fun hp => ?_
      constructor
      · rw [hes]
        exact hp.es
      · rw [hclist]
        exact hp.clist
      · rw [hretiring, hclist]
        exact hp.retiring
    by_cases hvirtual : c.isVirtualStore
    · obtain ⟨kind, hlookup, hkind⟩ := hc.store hvirtual
      rcases h.stores _ _ hlookup with hold | ⟨hle, -⟩
      · exact hcurrent fun _ => ⟨kind, hold, hkind⟩
      · -- a new collection is not known to the kernel, nor has it a record
        have hes : s.es.lookup (.representative c none) = none := by
          cases hrecord : s.es.lookup (.representative c none) with
          | none => rfl
          | some es =>
            have := (hs.recorded c es hrecord).1 hvirtual
            omega
        have hnone : s.clist.lookup (.representative c facet) = none := by
          cases hentry : s.clist.lookup (.representative c facet) with
          | none => rfl
          | some flag =>
            have := (hs.exported c facet flag hentry).store hvirtual
            omega
        left
        rw [hnone, letter_of_no_record hes]
        rfl
    · exact hcurrent fun hc => absurd hc hvirtual

end Mirror

section Letters

variable {s t u : Vat} {c : Cohort} {facet : Option Nat} {kindInfo : KindInfo}
  {status : ExportStatus} {es : List ExportStatus} {count i : Nat}

theorem length_padEnd (h : es.length ≤ count) : (padEnd es count).length = count := by
  rw [padEnd, List.length_append, List.length_replicate]
  omega

theorem getD_padEnd (j : Nat) : (padEnd es count).getD j .none = es.getD j .none := by
  simp only [padEnd, List.getD_eq_getElem?_getD, List.getElem?_append]
  split
  case isTrue => rfl
  case isFalse hj =>
    rw [List.getElem?_eq_none (Nat.le_of_not_lt hj), List.getElem?_replicate]
    split <;> rfl

theorem writeStatus_eq (hi : i < count) (hlength : es.length ≤ count) :
    writeStatus (padEnd es count) i status = (padEnd es count).set i status := by
  unfold writeStatus
  rw [length_padEnd hlength, if_pos hi]

theorem getD_writeStatus (hi : i < count) (hlength : es.length ≤ count) (j : Nat) :
    (writeStatus (padEnd es count) i status).getD j .none =
      if j = i then status else es.getD j .none := by
  rw [writeStatus_eq hi hlength, List.getD_eq_getElem?_getD, List.getElem?_set,
    length_padEnd hlength]
  by_cases hj : j = i
  · rw [if_pos hj.symm, if_pos hj, if_pos hi]
    rfl
  · rw [if_neg (Ne.symm hj), if_neg hj, ← List.getD_eq_getElem?_getD, getD_padEnd]

/-- No record is longer than its kind has facets. -/
def Bounded (s : Vat) : Prop :=
  ∀ c es kindInfo, s.es.lookup (.representative c none) = some es →
    s.shape c.kindID = some kindInfo → es.length ≤ kindInfo.facetCount

/-- The letters of the given references are written, and nothing else about exports. -/
structure Lettered (status : ExportStatus) (vrefs : List VRef) (s t : Vat) : Prop where
  rest : t.cohortView = Vat.cohortView { s with es := t.es }
  letters : ∀ c facet kindInfo, s.shape c.kindID = some kindInfo → kindInfo.hasFacet facet →
    t.letter c facet = if .representative c facet ∈ vrefs then status else s.letter c facet
  records : ∀ c es, t.es.lookup (.representative c none) = some es →
    s.es.lookup (.representative c none) ≠ none ∨ ∃ facet, .representative c facet ∈ vrefs
  bounded : Bounded s → Bounded t

theorem Lettered.shape {vrefs : List VRef} (h : Lettered status vrefs s t) (kindID : Nat) :
    t.shape kindID = s.shape kindID := by
  have hkinds : t.kindInfoTable = s.kindInfoTable := congrArg (·.1.kindInfoTable) h.rest
  have hdescs : t.durableKinds = s.durableKinds := congrArg (·.1.durableKinds) h.rest
  rw [Vat.shape, Vat.shape, hkinds, hdescs]

theorem Lettered.trans {vrefs wrefs : List VRef} (h : Lettered status vrefs s t)
    (h' : Lettered status wrefs t u) : Lettered status (vrefs ++ wrefs) s u where
  rest := by
    have hu := h'.rest
    have ht := h.rest
    simp only [Vat.cohortView, Vat.exportView, Prod.mk.injEq, ExportView.mk.injEq] at ht hu ⊢
    simp only [ht, hu, and_self]
  letters := fun c facet kindInfo hshape hfacet => by
    rw [h'.letters c facet kindInfo (h.shape _ ▸ hshape) hfacet,
      h.letters c facet kindInfo hshape hfacet]
    by_cases hv : VRef.representative c facet ∈ vrefs <;>
      by_cases hw : VRef.representative c facet ∈ wrefs <;> simp [hv, hw]
  records := fun c es hes => by
    rcases h'.records c es hes with ht | ⟨facet, hw⟩
    · obtain ⟨es', hes'⟩ := Option.ne_none_iff_exists'.mp ht
      exact (h.records c es' hes').imp id fun ⟨facet, hv⟩ => ⟨facet, List.mem_append_left _ hv⟩
    · exact Or.inr ⟨facet, List.mem_append_right _ hw⟩
  bounded := fun hs => h'.bounded (h.bounded hs)

theorem Lettered.of_same (hsame : SameCohorts s t) : Lettered status [] s t := by
  have hview := hsame
  simp only [SameCohorts, Unchanged, Vat.cohortView, Vat.exportView, Prod.mk.injEq,
    ExportView.mk.injEq] at hview
  have hes : t.es = s.es := hview.1.1
  have hshape : ∀ kindID, t.shape kindID = s.shape kindID := fun kindID => by
    rw [Vat.shape, Vat.shape, hview.1.2.2.1, hview.1.2.2.2.1]
  constructor
  case rest =>
    rw [hes]
    exact hsame
  case letters =>
    intro c facet kindInfo _ _
    rw [if_neg List.not_mem_nil, Vat.letter, Vat.letter, Vat.record, Vat.record, hes]
  case records =>
    intro c es h
    rw [hes] at h
    exact Or.inl (Option.ne_none_iff_exists'.mpr ⟨es, h⟩)
  case bounded =>
    intro hs c es kindInfo h hinfo
    rw [hes] at h
    rw [hshape] at hinfo
    exact hs c es kindInfo h hinfo

theorem lettered_of_record {es : Table VRef (List ExportStatus)} {l : List ExportStatus}
    (hkind : s.kindInfoTable.lookup c.kindID = some kindInfo) (hfacet : kindInfo.hasFacet facet)
    (hlength : (s.record c).length ≤ kindInfo.facetCount)
    (hl : l = writeStatus (padEnd (s.record c) kindInfo.facetCount) (facet.getD 0) status)
    (hes : es = s.es.insert (.representative c none) l ∨
      es = s.es.erase (.representative c none) ∧ ∀ x ∈ l, x = .none) :
    Lettered status [.representative c facet] s { s with es := es } := by
  have hlt := hasFacet_lt hfacet
  have hshape : s.shape c.kindID = some kindInfo := by rw [Vat.shape, hkind, Option.some_or]
  have hlen : l.length = kindInfo.facetCount := by
    rw [hl, writeStatus_eq hlt hlength, List.length_set, length_padEnd hlength]
  have hgetD : ∀ j, l.getD j .none = if j = facet.getD 0 then status else (s.record c).getD j .none :=
    fun j => by rw [hl, getD_writeStatus hlt hlength]
  have hother : ∀ d : Cohort, d ≠ c → es.lookup (.representative d none) =
      s.es.lookup (.representative d none) := by
    intro d hd
    have hne : VRef.representative d none ≠ .representative c none := fun heq => by
      cases heq
      exact hd rfl
    rcases hes with rfl | ⟨rfl, -⟩
    · rw [Table.lookup_insert, if_neg hne]
    · rw [Table.lookup_erase, if_neg hne]
  have hrecord : ∀ j, ((es.lookup (.representative c none)).getD []).getD j .none =
      l.getD j .none := by
    intro j
    rcases hes with rfl | ⟨rfl, hall⟩
    · rw [Table.lookup_insert, if_pos rfl, Option.getD_some]
    · rw [Table.lookup_erase, if_pos rfl, Option.getD_none, List.getD_nil]
      rw [List.getD_eq_getElem?_getD]
      cases hj : l[j]? with
      | none => rfl
      | some x => exact (hall x (List.mem_of_getElem? hj)).symm
  constructor
  case rest => rfl
  case letters =>
    intro d g info hinfo hg
    by_cases hd : d = c
    · subst hd
      rw [hshape] at hinfo
      cases hinfo
      change ((es.lookup (.representative d none)).getD []).getD (g.getD 0) .none = _
      rw [hrecord, hgetD]
      by_cases hgf : g = facet
      · rw [hgf, if_pos rfl, if_pos (List.mem_singleton_self _)]
      · rw [if_neg fun heq => hgf (hasFacet_inj hg hfacet heq), if_neg]
        · rfl
        · rw [List.mem_singleton]
          intro heq
          cases heq
          exact hgf rfl
    · rw [if_neg]
      · change ((es.lookup (.representative d none)).getD []).getD (g.getD 0) .none = _
        rw [hother d hd]
        rfl
      · rw [List.mem_singleton]
        intro heq
        cases heq
        exact hd rfl
  case records =>
    intro d l' hlookup
    by_cases hd : d = c
    · exact Or.inr ⟨facet, hd ▸ List.mem_singleton_self _⟩
    · change es.lookup _ = _ at hlookup
      rw [hother d hd] at hlookup
      exact Or.inl (Option.ne_none_iff_exists'.mpr ⟨l', hlookup⟩)
  case bounded =>
    intro hs d l' info hlookup hinfo
    change es.lookup _ = _ at hlookup
    change s.shape _ = _ at hinfo
    by_cases hd : d = c
    · subst hd
      rw [hshape] at hinfo
      cases hinfo
      rcases hes with rfl | ⟨rfl, -⟩
      · rw [Table.lookup_insert, if_pos rfl] at hlookup
        cases hlookup
        exact hlen.le
      · rw [Table.lookup_erase, if_pos rfl] at hlookup
        cases hlookup
    · rw [hother d hd] at hlookup
      exact hs d l' info hlookup hinfo

theorem setExportStatus_spec (hkind : s.kindInfoTable.lookup c.kindID = some kindInfo)
    (hfacet : kindInfo.hasFacet facet) (hs : Bounded s) :
    Wp (setExportStatus c facet status)
      (fun _ t => Lettered status [.representative c facet] s t) (fun _ _ => False) s := by
  have hshape : s.shape c.kindID = some kindInfo := by rw [Vat.shape, hkind, Option.some_or]
  have hlength : (s.record c).length ≤ kindInfo.facetCount := by
    unfold Vat.record
    cases hes : s.es.lookup (.representative c none) with
    | none => exact Nat.zero_le _
    | some es => exact hs c es kindInfo hes hshape
  have hcount : Wp (getFacetCount c.kindID) (fun n t => n = kindInfo.facetCount ∧ s = t)
      (fun _ _ => False) s := by
    simp only [getFacetCount, getFacetNames, wp_bind, wp_get, hkind, required, wp_pure]
    refine ⟨?_, trivial⟩
    unfold KindInfo.facetCount
    cases kindInfo.facetNames <;> rfl
  let written (status : ExportStatus) : List ExportStatus :=
    writeStatus (padEnd (s.record c) kindInfo.facetCount) (facet.getD 0) status
  have hset : ∀ status, Lettered status [.representative c facet] s
      { s with es := s.es.insert (.representative c none) (written status) } :=
    fun status => lettered_of_record hkind hfacet hlength rfl (Or.inl rfl)
  unfold setExportStatus
  rw [wp_bind, wp_get]
  dsimp only
  rw [wp_bind]
  apply wp_mono hcount
  · rintro _ _ ⟨rfl, rfl⟩
    cases status with
    | recognizable =>
      dsimp only
      simp only [getRefCount, wp_bind, wp_modify, wp_get, wp_pure]
      apply wp_ite
      · exact fun _ => (hset .recognizable).trans (Lettered.of_same rfl)
      · exact fun _ => hset .recognizable
    | reachable => exact hset .reachable
    | none =>
      dsimp only
      apply wp_ite
      · rintro ⟨hreachable, hrecognizable⟩
        refine lettered_of_record hkind hfacet hlength rfl (Or.inr ⟨rfl, fun x hx => ?_⟩)
        cases x with
        | none => rfl
        | recognizable => exact absurd hx hrecognizable
        | reachable => exact absurd hx hreachable
      · exact fun _ => hset .none
  · exact fun _ _ h => h.elim

theorem setExportStatus_unregistered (hkind : s.kindInfoTable.lookup c.kindID = none) :
    Wp (setExportStatus c facet status) (fun _ _ => False) (fun _ _ => True) s := by
  unfold setExportStatus getFacetCount getFacetNames
  simp only [wp_bind, wp_get, hkind, required, wp_throw]

theorem Lettered.mono {vrefs wrefs : List VRef} (h : Lettered status vrefs s t)
    (hmem : ∀ c facet, .representative c facet ∈ vrefs ↔ .representative c facet ∈ wrefs) :
    Lettered status wrefs s t where
  rest := h.rest
  letters := fun c facet kindInfo hshape hfacet => by
    rw [h.letters c facet kindInfo hshape hfacet]
    simp only [hmem]
  records := fun c es hes => (h.records c es hes).imp id fun ⟨facet, hv⟩ =>
    ⟨facet, (hmem c facet).mp hv⟩
  bounded := h.bounded

theorem Lettered.of_same_other {v : VRef} (hsame : SameCohorts s t)
    (hv : ∀ c facet, v ≠ .representative c facet) : Lettered status [v] s t :=
  (Lettered.of_same hsame).mono fun c facet => by
    simp only [List.not_mem_nil, List.mem_singleton, false_iff]
    exact fun heq => hv c facet heq.symm

theorem lettered_forM {f : VRef → LM PUnit} {P : Vat → VRef → Prop} {E : Fault → Vat → Prop}
    (hstep : ∀ v s, P s v → Bounded s → Wp (f v) (fun _ t => Lettered status [v] s t) E s)
    (hkeep : ∀ v w s t, P s w → Lettered status [v] s t → P t w) :
    ∀ (vrefs : List VRef) (s : Vat), (∀ v ∈ vrefs, P s v) → Bounded s →
      Wp (vrefs.forM f) (fun _ t => Lettered status vrefs s t) E s := by
  intro vrefs
  induction vrefs with
  | nil => exact fun s _ _ => Lettered.of_same rfl
  | cons v vrefs ih =>
    intro s hall hs
    change Wp (f v >>= fun _ => vrefs.forM f) _ _ s
    rw [wp_bind]
    apply wp_mono (hstep v s (hall v (List.mem_cons_self ..)) hs)
    · intro _ t hst
      apply wp_mono (ih t (fun w hw => hkeep v w s t (hall w (List.mem_cons_of_mem _ hw)) hst)
        (hst.bounded hs))
      · exact fun _ u htu => hst.trans htu
      · exact fun _ _ he => he
    · exact fun _ _ he => he

theorem Lettered.holds {vrefs : List VRef} {v : VRef} (h : Lettered status vrefs s t)
    (hv : s.holds v) : t.holds v := by
  have hkinds : t.kindInfoTable = s.kindInfoTable := congrArg (·.1.kindInfoTable) h.rest
  have hslots : t.slotToVal = s.slotToVal := congrArg (·.2.1) h.rest
  unfold Vat.holds
  rw [hkinds, hslots]
  exact hv

theorem retainExportedVref_spec {v : VRef} (hv : s.holds v) (hs : Bounded s) :
    Wp (retainExportedVref v) (fun _ t => Lettered .reachable [v] s t) (fun _ _ => False) s := by
  cases v with
  | representative c facet =>
    obtain ⟨-, kindInfo, hkind, hfacet⟩ := hv
    have hset : Wp (setExportStatus c facet .reachable)
        (fun _ t => Lettered .reachable [.representative c facet] s t) (fun _ _ => False) s :=
      setExportStatus_spec hkind hfacet hs
    exact hset
  | remotable id =>
    simp only [retainExportedVref, requiredValForSlot, wp_bind, wp_get]
    apply wp_mono (wp_insist _)
    · rintro _ _ ⟨-, rfl⟩
      exact Lettered.of_same_other rfl fun _ _ h => by cases h
    · exact fun _ _ h => absurd hv.1 h.1
  | presence id => exact Lettered.of_same_other rfl fun _ _ h => by cases h
  | promise allocatedByVat id => exact Lettered.of_same_other rfl fun _ _ h => by cases h
  | device id => exact Lettered.of_same_other rfl fun _ _ h => by cases h

/-- A reference whose kind has the facet. -/
def Vat.names (s : Vat) (v : VRef) : Prop :=
  ∀ c facet, v = .representative c facet →
    ∃ kindInfo, s.shape c.kindID = some kindInfo ∧ kindInfo.hasFacet facet

theorem Lettered.names {vrefs : List VRef} {v : VRef} (h : Lettered status vrefs s t)
    (hv : s.names v) : t.names v := by
  intro c facet hc
  rw [h.shape]
  exact hv c facet hc

theorem setExportStatus_names (hc : s.names (.representative c facet)) (hs : Bounded s) :
    Wp (setExportStatus c facet status)
      (fun _ t => Lettered status [.representative c facet] s t) (fun _ _ => True) s := by
  cases hkind : s.kindInfoTable.lookup c.kindID with
  | none =>
    exact wp_mono (setExportStatus_unregistered hkind) (fun _ _ h => h.elim) fun _ _ h => h
  | some kindInfo =>
    obtain ⟨kindInfo', hshape, hfacet⟩ := hc c facet rfl
    rw [Vat.shape, hkind, Option.some_or] at hshape
    cases hshape
    exact wp_mono (setExportStatus_spec hkind hfacet hs) (fun _ _ h => h) fun _ _ h => h.elim

theorem dropOneExport_spec {v : VRef} (hv : s.names v) (hs : Bounded s) :
    Wp (dropOneExport v) (fun _ t => Lettered .recognizable [v] s t) (fun _ _ => True) s := by
  let s' : Vat := { s with exportedRemotables := s.exportedRemotables.filter (· ≠ v) }
  have hss' : Lettered .recognizable [] s s' := Lettered.of_same rfl
  have hset : ∀ s₁ c facet, Lettered .recognizable [] s s₁ → v = .representative c facet →
      Wp (setExportStatus c facet .recognizable)
        (fun _ t => Lettered .recognizable [v] s t) (fun _ _ => True) s₁ := by
    intro s₁ c facet hs₁ hrepresentative
    subst hrepresentative
    exact wp_mono (setExportStatus_names (hs₁.names hv) (hs₁.bounded hs))
      (fun _ _ h => hs₁.trans h) fun _ _ h => h
  have hother : ∀ s₁, Lettered .recognizable [] s s₁ →
      (∀ c facet, v ≠ .representative c facet) → Lettered .recognizable [v] s s₁ := by
    intro s₁ hs₁ hv
    apply hs₁.mono
    intro c facet
    simp only [List.not_mem_nil, List.mem_singleton, false_iff]
    exact fun heq => hv c facet heq.symm
  unfold dropOneExport
  rw [wp_bind, wp_get]
  dsimp only
  apply wp_ite
  · intro _
    rw [wp_bind, wp_modify]
    cases v with
    | representative c facet => exact hset s' c facet hss' rfl
    | _ => exact hother s' hss' fun _ _ h => by cases h
  · intro _
    cases v with
    | representative c facet => exact hset s c facet (Lettered.of_same rfl) rfl
    | _ => exact hother s (Lettered.of_same rfl) fun _ _ h => by cases h

theorem retireOneExport_spec {v : VRef} (hv : s.names v) (hs : Bounded s) :
    Wp (retireOneExport v) (fun _ t => Lettered .none [v] s t) (fun _ _ => True) s := by
  cases v with
  | representative c facet =>
    have hset : Wp (setExportStatus c facet .none)
        (fun _ t => Lettered .none [.representative c facet] s t) (fun _ _ => True) s :=
      setExportStatus_names hv hs
    exact hset
  | remotable id => exact Lettered.of_same_other rfl fun _ _ h => by cases h
  | presence id => exact trivial
  | promise allocatedByVat id => exact trivial
  | device id => exact trivial

end Letters

end AgoricSdk.Liveslots
