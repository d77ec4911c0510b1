import AgoricSdk.Liveslots.ExportStatus

/-!
What exports, the deliveries of the kernel and the scan for dead objects do to the
records of the export status and to the kernel's table.
-/

namespace AgoricSdk.Liveslots

open SwingSet StateProgram KeyWalk

variable {s t u : Vat} {c : Cohort} {facet : Option Nat} {kindInfo : KindInfo}
  {status : ExportStatus} {kindID : Nat}

section Rewriting

theorem Mirrors.bounded (hs : Mirrors s) : Bounded s :=
  fun c es kindInfo hes hshape => (hs.recorded c es hes).2.2.2 kindInfo hshape

theorem Bounded.record (hs : Bounded s) (h : s.shape c.kindID = some kindInfo) :
    (s.record c).length ≤ kindInfo.facetCount := by
  unfold Vat.record
  cases hes : s.es.lookup (.representative c none) with
  | none => exact Nat.zero_le _
  | some es => exact hs c es kindInfo hes h

theorem Mirrors.not_exported (hs : Mirrors s) (h : s.shape c.kindID = some kindInfo)
    (hfacet : ¬ kindInfo.hasFacet facet) : s.clist.lookup (.representative c facet) = none := by
  cases hflag : s.clist.lookup (.representative c facet) with
  | none => rfl
  | some flag =>
    obtain ⟨info, hinfo, -, hhas⟩ := (hs.exported c facet flag hflag).kind
    rw [h] at hinfo
    cases hinfo
    exact absurd hhas hfacet

/-- Only the records, the kernel's table and the scan may differ. -/
structure SameKinds (s t : Vat) : Prop where
  kinds : t.kindView = s.kindView
  slotToVal : t.slotToVal = s.slotToVal
  stores : t.stores = s.stores
  collectionID : t.collectionID = s.collectionID

theorem SameKinds.of_rest {es : Table VRef (List ExportStatus)} {clist : Table VRef Bool}
    {scan : Option Scan}
    (h : t.cohortView = Vat.cohortView { s with es := es, clist := clist, scan := scan }) :
    SameKinds s t := by
  simp only [Vat.cohortView, Vat.exportView, Prod.mk.injEq, ExportView.mk.injEq] at h
  obtain ⟨⟨-, -, hkinds, hdescs, hexportID, -, hdefined, -⟩, hslots, hstores, hid⟩ := h
  refine ⟨?_, hslots, hstores, hid⟩
  simp only [Vat.kindView, hkinds, hdescs, hexportID, hdefined]

theorem Current.congr (hc : Current t c kindInfo) (h : SameKinds s t) : Current s c kindInfo :=
  ⟨shape_congr h.kinds _ ▸ hc.shape, hc.durable, h.stores ▸ hc.store⟩

theorem Mirrors.rewritten (hs : Mirrors s) (h : SameKinds s t)
    (hclist : ∀ c facet flag, t.clist.lookup (.representative c facet) = some flag →
      Known s c facet)
    (hes : ∀ c es, t.es.lookup (.representative c none) = some es →
      (c.isVirtualStore → c.subid < s.collectionID) ∧ c.kindID < s.exportID ∧
        (s.shape c.kindID = none → s.durableKinds.lookup c.kindID = none))
    (hbounded : Bounded t) : Grounded t := by
  have hkinds := h.kinds
  simp only [Vat.kindView, Prod.mk.injEq] at hkinds
  constructor
  case held =>
    intro c hmem
    rw [h.slotToVal] at hmem
    have hmade := hs.held c hmem
    exact ⟨hkinds.1 ▸ hmade.kind, fun hc => h.collectionID ▸ hmade.store hc⟩
  case stores =>
    rw [h.stores, h.collectionID]
    exact hs.stores
  case exported =>
    intro c facet flag hflag
    have hknown := hclist c facet flag hflag
    exact ⟨fun hc => h.collectionID ▸ hknown.store hc, shape_congr h.kinds _ ▸ hknown.kind⟩
  case recorded =>
    intro c es hlookup
    obtain ⟨hstore, hbound, hnone⟩ := hes c es hlookup
    rw [h.collectionID, hkinds.2.2.1, hkinds.2.1]
    refine ⟨hstore, hbound, ?_, fun kindInfo hinfo => hbounded c es kindInfo hlookup hinfo⟩
    rw [shape_congr h.kinds]
    exact hnone

theorem Mirrors.shrunk (hs : Mirrors s) (h : SameKinds s t)
    (hclist : ∀ v flag, t.clist.lookup v = some flag → s.clist.lookup v = some flag)
    (hes : ∀ v es, t.es.lookup v = some es → s.es.lookup v = some es) : Grounded t := by
  apply hs.rewritten h
  · exact fun c facet flag hflag => hs.exported c facet flag (hclist _ _ hflag)
  · exact fun c es hlookup => (hs.recorded c es (hes _ _ hlookup)).imp id fun h => h.imp id And.left
  · intro c es kindInfo hlookup hshape
    rw [shape_congr h.kinds] at hshape
    exact hs.bounded c es kindInfo (hes _ _ hlookup) hshape

end Rewriting

section Deliveries

/-- The kernel's entries of the references get the flag that a letter stands for. -/
structure Flagged (status : ExportStatus) (vrefs : List VRef) (s t : Vat) : Prop where
  rest : t.cohortView = Vat.cohortView { s with clist := t.clist }
  flags : ∀ c facet, t.clist.lookup (.representative c facet) =
    if .representative c facet ∈ vrefs then status.flag
    else s.clist.lookup (.representative c facet)

theorem Flagged.trans {vrefs wrefs : List VRef} (h : Flagged status vrefs s t)
    (h' : Flagged status wrefs t u) : Flagged status (vrefs ++ wrefs) s u where
  rest := by
    have hu := h'.rest
    have ht := h.rest
    simp only [Vat.cohortView, Vat.exportView, Prod.mk.injEq, ExportView.mk.injEq] at ht hu ⊢
    simp only [ht, hu, and_self]
  flags := fun c facet => by
    rw [h'.flags c facet, h.flags c facet]
    by_cases hv : VRef.representative c facet ∈ vrefs <;>
      by_cases hw : VRef.representative c facet ∈ wrefs <;> simp [hv, hw]

theorem flagged_forM {f : VRef → LM PUnit}
    (hstep : ∀ v s, Wp (f v) (fun _ t => Flagged status [v] s t) (fun _ _ => False) s) :
    ∀ (vrefs : List VRef) (s : Vat),
      Wp (vrefs.forM f) (fun _ t => Flagged status vrefs s t) (fun _ _ => False) s := by
  intro vrefs
  induction vrefs with
  | nil => exact fun s => ⟨rfl, fun _ _ => rfl⟩
  | cons v vrefs ih =>
    intro s
    change Wp (f v >>= fun _ => vrefs.forM f) _ _ s
    rw [wp_bind]
    apply wp_mono (hstep v s)
    · exact fun _ t hst => wp_mono (ih t) (fun _ _ htu => hst.trans htu) fun _ _ he => he
    · exact fun _ _ he => he

theorem flagged_of_clist {v : VRef} {clist : Table VRef Bool}
    (h : ∀ w, clist.lookup w = if w = v then status.flag else s.clist.lookup w) :
    Flagged status [v] s { s with clist := clist } where
  rest := rfl
  flags := fun c facet => by
    simp only [List.mem_singleton]
    exact h _

theorem Mirrors.relettered {vrefs : List VRef} (hs : Mirrors s) (hscan : s.scan = none)
    (hsame : SameKinds s t) (hstill : t.scan = s.scan)
    (hletters : ∀ c facet kindInfo, s.shape c.kindID = some kindInfo → kindInfo.hasFacet facet →
      t.letter c facet = if .representative c facet ∈ vrefs then status else s.letter c facet)
    (hflags : ∀ c facet, t.clist.lookup (.representative c facet) =
      if .representative c facet ∈ vrefs then status.flag
      else s.clist.lookup (.representative c facet))
    (hrecords : ∀ c es, t.es.lookup (.representative c none) = some es →
      s.es.lookup (.representative c none) ≠ none ∨ ∃ facet, .representative c facet ∈ vrefs)
    (hbounded : Bounded t)
    (hknown : ∀ c facet, .representative c facet ∈ vrefs → Known s c facet) : Mirrors t := by
  have hretiring : ∀ v, v ∉ s.retiring := fun v => by
    rw [Vat.retiring, hscan]
    exact List.not_mem_nil
  constructor
  case toRegistered => exact hs.toRegistered.congr hsame.kinds
  case toGrounded =>
    apply hs.rewritten hsame
    · intro c facet flag hflag
      rw [hflags] at hflag
      split at hflag
      case isTrue hmem => exact hknown c facet hmem
      case isFalse => exact hs.exported c facet flag hflag
    · intro c es hlookup
      rcases hrecords c es hlookup with hold | ⟨facet, hmem⟩
      · obtain ⟨es', hes'⟩ := Option.ne_none_iff_exists'.mp hold
        exact (hs.recorded c es' hes').imp id fun h => h.imp id And.left
      · obtain ⟨kindInfo, hinfo, -⟩ := (hknown c facet hmem).kind
        refine ⟨(hknown c facet hmem).store, hs.shape_bound hinfo, fun hnone => ?_⟩
        rw [hinfo] at hnone
        cases hnone
    · exact hbounded
  case retired =>
    intro c facet hmem
    rw [Vat.retiring, hstill] at hmem
    exact absurd hmem (hretiring _)
  case mirrored =>
    intro c facet kindInfo hc hfacet
    have hcs := hc.congr hsame
    left
    rw [hflags, hletters c facet kindInfo hcs.shape hfacet]
    by_cases hmem : VRef.representative c facet ∈ vrefs
    · rw [if_pos hmem, if_pos hmem]
    · rw [if_neg hmem, if_neg hmem]
      rcases hs.mirrored c facet kindInfo hcs hfacet with heq | hp
      · exact heq
      · -- no scan is under way
        exact hp.retiring.elim (fun h => absurd h (hretiring _)) fun h => absurd h.1 (hretiring _)

theorem Mirrors.flagged_after {vrefs : List VRef} (hs : Mirrors s) (hscan : s.scan = none)
    (hknown : ∀ c facet, .representative c facet ∈ vrefs → Known s c facet)
    (hletters : Lettered status vrefs s t) (hflags : Flagged status vrefs t u) : Mirrors u := by
  have ht := hletters.rest
  have hu := hflags.rest
  simp only [Vat.cohortView, Vat.exportView, Prod.mk.injEq, ExportView.mk.injEq] at ht hu
  have hes : u.es = t.es := hu.1.1
  have hclist : t.clist = s.clist := ht.1.2.1
  have hview : u.kindView = t.kindView := by
    simp only [Vat.kindView, hu]
  have hrest : u.cohortView = Vat.cohortView { s with es := u.es, clist := u.clist } := by
    simp only [Vat.cohortView, Vat.exportView, ht, hu]
  apply hs.relettered hscan (SameKinds.of_rest hrest)
  · rw [hu.1.2.2.2.2.2.1, ht.1.2.2.2.2.2.1]
  · intro c facet kindInfo hshape hfacet
    rw [← hletters.letters c facet kindInfo hshape hfacet, Vat.letter, Vat.letter, Vat.record,
      Vat.record, hes]
  · rw [← hclist]
    exact hflags.flags
  · rw [hes]
    exact hletters.records
  · intro c es kindInfo hlookup hshape
    rw [hes] at hlookup
    rw [shape_congr hview] at hshape
    exact hletters.bounded hs.bounded c es kindInfo hlookup hshape
  · exact hknown

theorem Mirrors.lettered_after {vrefs : List VRef} (hs : Mirrors s) (hscan : s.scan = none)
    (hknown : ∀ c facet, .representative c facet ∈ vrefs → Known s c facet)
    (hflags : Flagged status vrefs s t) (hletters : Lettered status vrefs t u) : Mirrors u := by
  have ht := hflags.rest
  have hu := hletters.rest
  simp only [Vat.cohortView, Vat.exportView, Prod.mk.injEq, ExportView.mk.injEq] at ht hu
  have hes : t.es = s.es := ht.1.1
  have hclist : u.clist = t.clist := hu.1.2.1
  have hview : t.kindView = s.kindView := by
    simp only [Vat.kindView, ht]
  have hbounded : Bounded t := by
    intro c es kindInfo hlookup hshape
    rw [hes] at hlookup
    rw [shape_congr hview] at hshape
    exact hs.bounded c es kindInfo hlookup hshape
  have hrest : u.cohortView = Vat.cohortView { s with es := u.es, clist := u.clist } := by
    simp only [Vat.cohortView, Vat.exportView, ht, hu]
  apply hs.relettered hscan (SameKinds.of_rest hrest)
  · rw [hu.1.2.2.2.2.2.1, ht.1.2.2.2.2.2.1]
  · intro c facet kindInfo hshape hfacet
    have hletter : t.letter c facet = s.letter c facet := by
      rw [Vat.letter, Vat.letter, Vat.record, Vat.record, hes]
    rw [hletters.letters c facet kindInfo (shape_congr hview _ ▸ hshape) hfacet, hletter]
  · rw [hclist]
    exact hflags.flags
  · rw [← hes]
    exact hletters.records
  · exact hletters.bounded hbounded
  · exact hknown

theorem Mirrors.known_of_holds {v : VRef} (hs : Mirrors s) (hv : s.holds v)
    (hc : v = .representative c facet) : Known s c facet := by
  subst hc
  obtain ⟨hmem, kindInfo, hkind, hfacet⟩ := hv
  have hmade := hs.held c hmem
  obtain ⟨info, hinfo, hdurable⟩ := hmade.kind
  rw [hkind] at hinfo
  cases hinfo
  refine ⟨hmade.store, kindInfo, ?_, hdurable, hfacet⟩
  rw [Vat.shape, hkind, Option.some_or]

theorem exportSlots_mirrors {slots : List VRef} (hs : Mirrors s) (hscan : s.scan = none)
    (hheld : s.holdsAll slots) :
    Wp (exportSlots slots) (fun _ t => Mirrors t) (fun _ _ => False) s := by
  unfold exportSlots
  rw [wp_bind]
  apply wp_mono (lettered_forM (fun v s hv hs => retainExportedVref_spec hv hs)
    (fun _ _ _ _ hw hst => hst.holds hw) slots s hheld hs.bounded)
  · intro _ t hletters
    have hknown : ∀ c facet, .representative c facet ∈ slots → Known s c facet :=
      fun c facet hmem => hs.known_of_holds (hheld _ hmem) rfl
    have hexport : ∀ v s, Wp (kernelExport v) (fun _ t => Flagged .reachable [v] s t)
        (fun _ _ => False) s :=
      fun v s => flagged_of_clist fun w => Table.lookup_insert ..
    have hother : ∀ v s, (∀ c facet, v ≠ .representative c facet) →
        Flagged .reachable [v] s s := by
      intro v s hv
      constructor
      · rfl
      · intro c facet
        rw [if_neg]
        exact fun hmem => hv c facet (List.mem_singleton.mp hmem).symm
    apply wp_mono (flagged_forM _ slots t)
    · exact fun _ u hflags => hs.flagged_after hscan hknown hletters hflags
    · exact fun _ _ he => he
    intro v s
    cases v with
    | remotable id => exact hexport _ s
    | representative c facet => exact hexport _ s
    | presence id => exact hother _ s fun _ _ h => by cases h
    | promise allocatedByVat id => exact hother _ s fun _ _ h => by cases h
    | device id => exact hother _ s fun _ _ h => by cases h
  · exact fun _ _ he => he

theorem Mirrors.known_of_clist {vrefs : List VRef} {flag : Bool} (hs : Mirrors s)
    (h : ∀ vref ∈ vrefs, s.clist.lookup vref = some flag) :
    ∀ c facet, .representative c facet ∈ vrefs → Known s c facet :=
  fun c facet hmem => hs.exported c facet flag (h _ hmem)

theorem delivery_mirrors {vrefs : List VRef} {flag : Bool} {f : VRef → LM PUnit}
    {g : VRef → Vat → Vat} (hs : Mirrors s) (hscan : s.scan = none)
    (hflag : ∀ vref ∈ vrefs, s.clist.lookup vref = some flag)
    (hg : ∀ v s, Flagged status [v] s (g v s))
    (hf : ∀ v s, s.names v → Bounded s →
      Wp (f v) (fun _ t => Lettered status [v] s t) (fun _ _ => True) s) :
    Wp (do
        vrefs.forM fun vref => modify (g vref)
        vrefs.forM f)
      (fun _ t => Mirrors t) (fun _ _ => True) s := by
  have hknown := hs.known_of_clist hflag
  have hloop : Wp (vrefs.forM fun vref => (modify (g vref) : LM PUnit))
      (fun _ t => Flagged status vrefs s t) (fun _ _ => False) s := by
    apply flagged_forM
    intro v s
    rw [wp_modify]
    exact hg v s
  rw [wp_bind]
  apply wp_mono hloop
  · intro _ t hflags
    have ht := hflags.rest
    simp only [Vat.cohortView, Vat.exportView, Prod.mk.injEq, ExportView.mk.injEq] at ht
    have hview : t.kindView = s.kindView := by
      simp only [Vat.kindView, ht]
    have hbounded : Bounded t := by
      intro c es kindInfo hlookup hshape
      rw [ht.1.1] at hlookup
      rw [shape_congr hview] at hshape
      exact hs.bounded c es kindInfo hlookup hshape
    have hnames : ∀ v ∈ vrefs, t.names v := by
      rintro v hv c facet rfl
      obtain ⟨kindInfo, hshape, -, hfacet⟩ := (hknown c facet hv).kind
      exact ⟨kindInfo, shape_congr hview _ ▸ hshape, hfacet⟩
    exact wp_mono (lettered_forM hf (fun _ _ _ _ hw hst => hst.names hw) vrefs t hnames hbounded)
      (fun _ _ hletters => hs.lettered_after hscan hknown hflags hletters) fun _ _ he => he
  · exact fun _ _ he => he.elim

theorem dropExports_mirrors {vrefs : List VRef} (hs : Mirrors s) (hscan : s.scan = none)
    (hflag : ∀ vref ∈ vrefs, s.clist.lookup vref = some true) :
    Wp (dropExports vrefs) (fun _ t => Mirrors t) (fun _ _ => True) s :=
  delivery_mirrors hs hscan hflag (fun _ _ => flagged_of_clist fun _ => Table.lookup_insert ..)
    fun _ _ => dropOneExport_spec

theorem retireExports_mirrors {vrefs : List VRef} (hs : Mirrors s) (hscan : s.scan = none)
    (hflag : ∀ vref ∈ vrefs, s.clist.lookup vref = some false) :
    Wp (retireExports vrefs) (fun _ t => Mirrors t) (fun _ _ => True) s :=
  delivery_mirrors hs hscan hflag (fun _ _ => flagged_of_clist fun _ => Table.lookup_erase ..)
    fun _ _ => retireOneExport_spec

end Deliveries

section Retirees

variable {es : List ExportStatus}

theorem mem_retirees {v : VRef} (hreachable : .reachable ∉ es) (hes : es ≠ [.recognizable]) :
    v ∈ (exportStatus es c).2 ↔
      ∃ i, v = .representative c (some i) ∧ es[i]? = some .recognizable := by
  unfold exportStatus
  rw [decide_eq_false hreachable]
  simp only [Bool.false_eq_true, if_false, if_neg hes, List.mem_filterMap, List.mem_range]
  constructor
  · rintro ⟨i, -, h⟩
    split at h
    case isTrue hi =>
      cases h
      exact ⟨i, rfl, hi⟩
    case isFalse => cases h
  · rintro ⟨i, rfl, hi⟩
    obtain ⟨hlt, -⟩ := List.getElem?_eq_some_iff.mp hi
    exact ⟨i, hlt, if_pos hi⟩

theorem retirees_nodup : (exportStatus es c).2.Nodup := by
  unfold exportStatus
  dsimp only
  split
  · exact List.nodup_nil
  · split
    · exact List.nodup_singleton _
    · apply List.nodup_range.filterMap
      intro i j v hi hj
      split at hi
      case isFalse => cases hi
      case isTrue =>
        split at hj
        case isFalse => cases hj
        case isTrue =>
          cases hi
          cases hj
          rfl

theorem baseRef_of_retiree {v : VRef} (h : v ∈ (exportStatus es c).2) :
    v.baseRef = .representative c none := by
  by_cases hreachable : .reachable ∈ es
  · unfold exportStatus at h
    rw [decide_eq_true hreachable] at h
    cases h
  · by_cases hes : es = [.recognizable]
    · unfold exportStatus at h
      rw [decide_eq_false hreachable] at h
      simp only [Bool.false_eq_true, if_false, if_pos hes, List.mem_singleton] at h
      rw [h]
      rfl
    · obtain ⟨i, rfl, -⟩ := (mem_retirees hreachable hes).mp h
      rfl

theorem exportStatus_reachable_iff : (exportStatus es c).1 = true ↔ .reachable ∈ es := by
  unfold exportStatus
  by_cases hreachable : .reachable ∈ es
  · rw [decide_eq_true hreachable]
    exact iff_of_true rfl hreachable
  · rw [decide_eq_false hreachable]
    simp only [Bool.false_eq_true, if_false]
    split <;> exact iff_of_false Bool.false_ne_true hreachable

theorem getExportStatus_eq : s.getExportStatus c = exportStatus (s.record c) c := rfl

theorem retirees_singleton : (exportStatus [.recognizable] c) = (false, [.representative c none]) :=
  rfl

theorem unfaceted_record (hnames : kindInfo.facetNames = none)
    (hlength : es.length ≤ kindInfo.facetCount)
    (hletter : es.getD 0 .none = .recognizable) : es = [.recognizable] := by
  have hcount : kindInfo.facetCount = 1 := by rw [KindInfo.facetCount, hnames]
  rw [hcount] at hlength
  match es, hlength, hletter with
  | [x], _, h => exact congrArg (fun y => [y]) h

theorem getElem?_of_getD {i : Nat} {x : ExportStatus} (hx : x ≠ .none)
    (h : es.getD i .none = x) : es[i]? = some x := by
  rw [List.getD_eq_getElem?_getD] at h
  cases hi : es[i]? with
  | none =>
    rw [hi] at h
    exact absurd h.symm hx
  | some y =>
    rw [hi] at h
    exact congrArg some h

/-- What the kernel knows as unreachable is among the retirees, or the record was taken for
the one of an unfaceted object. -/
theorem retired_or_misread (hfacet : kindInfo.hasFacet facet)
    (hlength : es.length ≤ kindInfo.facetCount) (hreachable : .reachable ∉ es)
    (hletter : es.getD (facet.getD 0) .none = .recognizable) :
    .representative c facet ∈ (exportStatus es c).2 ∨
      .representative c none ∈ (exportStatus es c).2 ∧ ¬ kindInfo.hasFacet none := by
  by_cases hes : es = [.recognizable]
  · rw [hes, retirees_singleton]
    unfold KindInfo.hasFacet at hfacet ⊢
    cases hnames : kindInfo.facetNames with
    | none =>
      rw [hnames] at hfacet
      exact Or.inl (hfacet ▸ List.mem_singleton_self _)
    | some names =>
      refine Or.inr ⟨List.mem_singleton_self _, ?_⟩
      rintro ⟨i, -, hi⟩
      cases hi
  · left
    rw [mem_retirees hreachable hes]
    unfold KindInfo.hasFacet at hfacet
    cases hnames : kindInfo.facetNames with
    | none =>
      rw [hnames] at hfacet
      rw [hfacet] at hletter
      exact absurd (unfaceted_record hnames hlength hletter) hes
    | some names =>
      rw [hnames] at hfacet
      obtain ⟨i, -, rfl⟩ := hfacet
      refine ⟨i, rfl, getElem?_of_getD ?_ hletter⟩
      exact fun h => by cases h

end Retirees

section Scans

theorem mem_foldl_addTo {α : Type} [DecidableEq α] {a : α} :
    ∀ {xs set : List α}, a ∈ xs.foldl addTo set ↔ a ∈ set ∨ a ∈ xs := by
  intro xs
  induction xs with
  | nil => simp
  | cons x xs ih =>
    intro set
    rw [List.foldl_cons, ih, mem_addTo, List.mem_cons]
    tauto

theorem lookup_foldl_erase {v : VRef} :
    ∀ {vrefs : List VRef} {t : Table VRef Bool},
      (vrefs.foldl (fun t vref => t.erase vref) t).lookup v =
        if v ∈ vrefs then none else t.lookup v := by
  intro vrefs
  induction vrefs with
  | nil => simp
  | cons w vrefs ih =>
    intro t
    rw [List.foldl_cons, ih, Table.lookup_erase]
    by_cases hw : v = w <;> by_cases hmem : v ∈ vrefs <;> simp [hw, hmem]

theorem Mirrors.rescanned {scan : Option Scan} (hs : Mirrors s)
    (hretiring : ∀ c facet, .representative c facet ∈ Vat.retiring { s with scan := scan } ↔
      .representative c facet ∈ s.retiring) : Mirrors { s with scan := scan } := by
  have hsame : SameKinds s { s with scan := scan } := ⟨rfl, rfl, rfl, rfl⟩
  constructor
  case toRegistered => exact hs.toRegistered.congr hsame.kinds
  case toGrounded => exact hs.shrunk hsame (fun _ _ h => h) fun _ _ h => h
  case retired => exact fun c facet hmem => hs.retired c facet ((hretiring c facet).mp hmem)
  case mirrored =>
    intro c facet kindInfo hc hfacet
    refine (hs.mirrored c facet kindInfo (hc.congr hsame) hfacet).imp id fun hp => ?_
    refine ⟨hp.es, hp.clist, ?_⟩
    rw [hretiring, hretiring]
    exact hp.retiring

theorem Mirrors.deleted {scan : Scan} (hs : Mirrors s) (hscan : s.scan = some scan)
    (hreachable : (s.getExportStatus c).1 = false)
    (ht : t = { s with
      es := s.es.erase (.representative c none)
      scan := some (scan.retire (s.getExportStatus c).2) }) : Mirrors t := by
  have hsame : SameKinds s t := by
    rw [ht]
    exact ⟨rfl, rfl, rfl, rfl⟩
  have hclist : t.clist = s.clist := by rw [ht]
  have hes : ∀ v, t.es.lookup v =
      if v = .representative c none then none else s.es.lookup v := fun v => by
    rw [ht]
    exact Table.lookup_erase ..
  have hretiring : ∀ v, v ∈ t.retiring ↔ v ∈ s.retiring ∨ v ∈ (s.getExportStatus c).2 := by
    intro v
    rw [ht, Vat.retiring, Vat.retiring, hscan]
    exact mem_foldl_addTo
  constructor
  case toRegistered => exact hs.toRegistered.congr hsame.kinds
  case toGrounded =>
    apply hs.shrunk hsame
    · rw [hclist]
      exact fun _ _ h => h
    · intro v es h
      rw [hes] at h
      split at h
      case isTrue => cases h
      case isFalse => exact h
  case retired =>
    intro d facet hmem
    rw [hes]
    split
    case isTrue => rfl
    case isFalse hne =>
      rcases (hretiring _).mp hmem with hold | hnew
      · exact hs.retired d facet hold
      · exact absurd (baseRef_of_retiree hnew) hne
  case mirrored =>
    intro d facet kindInfo hd hfacet
    have hds := hd.congr hsame
    have hpending : Pending s d facet → Pending t d facet := by
      intro hp
      refine ⟨?_, hclist ▸ hp.clist, ?_⟩
      · rw [hes]
        split
        · rfl
        · exact hp.es
      · rw [hretiring, hretiring, hclist]
        exact hp.retiring.imp Or.inl fun h => ⟨Or.inl h.1, h.2⟩
    rcases hs.mirrored d facet kindInfo hds hfacet with heq | hp
    · by_cases hdc : d = c
      · subst hdc
        have hnone : t.es.lookup (.representative d none) = none := by rw [hes, if_pos rfl]
        rw [letter_of_no_record hnone, hclist, heq]
        have hmem : .reachable ∉ s.record d := fun h => by
          rw [getExportStatus_eq, exportStatus_reachable_iff.mpr h] at hreachable
          cases hreachable
        cases hletter : s.letter d facet with
        | none => exact Or.inl rfl
        | recognizable =>
          right
          have hlength : (s.record d).length ≤ kindInfo.facetCount := hs.bounded.record hds.shape
          refine ⟨hnone, by rw [hclist, heq, hletter]; rfl, ?_⟩
          rw [hretiring, hretiring, hclist]
          rcases retired_or_misread hfacet hlength hmem hletter with hin | ⟨hin, hother⟩
          · exact Or.inl (Or.inr hin)
          · exact Or.inr ⟨Or.inr hin, hs.not_exported hds.shape hother⟩
        | reachable =>
          exact absurd (List.mem_of_getElem? (getElem?_of_getD (fun h => by cases h) hletter)) hmem
      · left
        have hother : t.es.lookup (.representative d none) =
            s.es.lookup (.representative d none) := by
          rw [hes, if_neg]
          exact fun h => hdc (VRef.representative.inj h).1
        rw [hclist, heq, Vat.letter, Vat.letter, Vat.record, Vat.record, hother]
    · exact Or.inr (hpending hp)

theorem Mirrors.finished (hs : Mirrors s)
    (hflag : ∀ v ∈ s.retiring, s.clist.lookup v = some false)
    (ht : t = { s with
      clist := s.retiring.foldl (fun t vref => t.erase vref) s.clist
      scan := none }) : Mirrors t := by
  have hsame : SameKinds s t := by
    rw [ht]
    exact ⟨rfl, rfl, rfl, rfl⟩
  have hes : t.es = s.es := by rw [ht]
  have hclist : ∀ v, t.clist.lookup v = if v ∈ s.retiring then none else s.clist.lookup v :=
    fun v => by
      rw [ht]
      exact lookup_foldl_erase ..
  have hletter : ∀ c facet, t.letter c facet = s.letter c facet := fun c facet => by
    rw [Vat.letter, Vat.letter, Vat.record, Vat.record, hes]
  constructor
  case toRegistered => exact hs.toRegistered.congr hsame.kinds
  case toGrounded =>
    apply hs.shrunk hsame
    · intro v flag h
      rw [hclist] at h
      split at h
      case isTrue => cases h
      case isFalse => exact h
    · rw [hes]
      exact fun _ _ h => h
  case retired =>
    intro c facet hmem
    rw [ht] at hmem
    cases hmem
  case mirrored =>
    intro c facet kindInfo hc hfacet
    left
    rw [hclist, hletter]
    by_cases hmem : VRef.representative c facet ∈ s.retiring
    · rw [if_pos hmem, letter_of_no_record (hs.retired c facet hmem)]
      rfl
    · rw [if_neg hmem]
      rcases hs.mirrored c facet kindInfo (hc.congr hsame) hfacet with heq | hp
      · exact heq
      · rcases hp.retiring with hin | ⟨hin, hnone⟩
        · exact absurd hin hmem
        · -- the kernel does not know what it is told to retire
          rw [hflag _ hin] at hnone
          cases hnone

theorem finishScan_mirrors {scan : Scan} (hs : Mirrors s) (hscan : s.scan = some scan) :
    Wp (finishScan scan) (fun _ t => t.terminated = false → Mirrors t) (fun _ _ => True) s := by
  unfold finishScan
  rw [wp_bind]
  apply wp_mono (wp_of_moves SameCohorts (discard (importsToRetire scan)) s)
  · intro _ u hsu
    have hu : Mirrors u := hs.steady (steady_of_same hsu)
    have huscan : u.scan = some scan := (congrArg (·.1.scan) hsu).trans hscan
    have hretiring : u.retiring = scan.exportsToRetire := by
      rw [Vat.retiring, huscan]
      rfl
    unfold kernelRetireExports
    rw [wp_bind, wp_modify, wp_modify]
    split
    case isTrue hflag =>
      rw [← hretiring] at hflag ⊢
      exact fun _ => hu.finished hflag rfl
    case isFalse =>
      intro h
      cases h
  · exact fun _ _ _ => trivial

theorem deleteVirtualObject_spec :
    Wp (deleteVirtualObject c)
      (fun result t => (s.getExportStatus c).1 = false ∧ result.2 = (s.getExportStatus c).2 ∧
        ∃ u, Steady s u ∧
          SameCohorts { u with es := u.es.erase (.representative c none) } t)
      (fun _ _ => True) s := by
  unfold deleteVirtualObject getRefCount
  simp only [wp_bind, wp_get, wp_pure]
  apply wp_mono (wp_insist _)
  · rintro _ _ ⟨hreachable, rfl⟩
    apply wp_mono (wp_insist _)
    · rintro _ _ ⟨-, rfl⟩
      apply wp_mono (wp_of_moves Steady (deleteStoredRepresentation c) s)
      · intro _ u hsu
        rw [wp_modify]
        apply wp_mono (wp_of_moves SameCohorts (ceaseRecognition (.representative c none)) _)
        · exact fun _ t hut => ⟨hreachable, trivial, u, hsu, hut⟩
        · exact fun _ _ _ => trivial
      · exact fun _ _ _ => trivial
    · exact fun _ _ _ => trivial
  · exact fun _ _ _ => trivial

theorem checkExportRepresentative_spec :
    Wp (checkExportRepresentative c)
      (fun exportsToRetire t => exportsToRetire = [] ∧ SameCohorts s t ∨
        (s.getExportStatus c).1 = false ∧ exportsToRetire = (s.getExportStatus c).2 ∧
          ∃ u, Steady s u ∧ SameCohorts { u with es := u.es.erase (.representative c none) } t)
      (fun _ _ => True) s := by
  unfold checkExportRepresentative
  rw [wp_bind, wp_get]
  dsimp only
  rw [wp_bind]
  have hreads : Wp (isVirtualObjectReachable c) (fun _ t => s = t) (fun _ _ => False) s := by
    simp only [isVirtualObjectReachable, getRefCount, wp_bind, wp_get, wp_pure]
  apply wp_mono hreads
  · rintro referenced _ rfl
    apply wp_ite
    · exact fun _ => Or.inl ⟨rfl, rfl⟩
    · intro _
      rw [wp_bind]
      exact wp_mono deleteVirtualObject_spec (fun _ _ h => Or.inr h) fun _ _ h => h
  · exact fun _ _ h => h.elim

theorem Mirrors.scanned {f : Scan → Scan} (hs : Mirrors s) (vrefs : List VRef)
    (hf : ∀ scan, (f scan).exportsToRetire = vrefs.foldl addTo scan.exportsToRetire)
    (hvrefs : ∀ c facet, VRef.representative c facet ∉ vrefs) :
    Mirrors { s with scan := s.scan.map f } := by
  apply hs.rescanned
  intro c facet
  unfold Vat.retiring
  cases s.scan with
  | none => exact Iff.rfl
  | some scan =>
    change _ ∈ (f scan).exportsToRetire ↔ _ ∈ scan.exportsToRetire
    rw [hf, mem_foldl_addTo, or_iff_left (hvrefs c facet)]

theorem scanOne_mirrors {scan : Scan} {v : VRef} (hs : Mirrors s) (hscan : s.scan = some scan) :
    Wp (scanOne v) (fun _ t => Mirrors t) (fun _ _ => True) s := by
  let s' : Vat := { s with possiblyDeadSet := s.possiblyDeadSet.filter (· ≠ v) }
  have hs' : Mirrors s' := hs.steady (steady_of_same rfl)
  unfold scanOne
  rw [wp_bind, wp_modify]
  change Wp _ _ _ s'
  cases v with
  | representative c facet =>
    dsimp only
    rw [wp_bind]
    apply wp_mono checkExportRepresentative_spec
    · rintro exportsToRetire t (⟨rfl, hsame⟩ | ⟨hreachable, rfl, u, hsu, hut⟩)
      · rw [wp_modify]
        exact (hs'.steady (steady_of_same hsame)).scanned [] (fun _ => rfl) fun _ _ => List.not_mem_nil
      · rw [wp_modify]
        have hu : Mirrors u := hs'.steady hsu
        have hview := hsu.exports
        simp only [Vat.exportView, ExportView.mk.injEq] at hview
        have huscan : u.scan = some scan := hview.2.2.2.2.2.1.trans hscan
        have hstatus : u.getExportStatus c = s'.getExportStatus c := by
          rw [getExportStatus_eq, getExportStatus_eq, Vat.record, Vat.record, hview.1]
        rw [← hstatus] at hreachable ⊢
        have hdeleted := hu.deleted huscan hreachable rfl
        refine hdeleted.steady (steady_of_same ?_)
        simp only [SameCohorts, Unchanged, Vat.cohortView, Vat.exportView, Prod.mk.injEq,
          ExportView.mk.injEq] at hut ⊢
        rw [huscan] at hut
        simp only [hut, Option.map_some, and_self]
    · exact fun _ _ h => h
  | remotable id =>
    dsimp only
    rw [wp_bind]
    have hcheck : Wp (checkExportRemotable (.remotable id))
        (fun exportsToRetire t => SameCohorts s' t ∧ ∀ c facet,
          VRef.representative c facet ∉ exportsToRetire) (fun _ _ => True) s' := by
      unfold checkExportRemotable
      rw [wp_bind, wp_get]
      apply wp_ite
      · exact fun _ => ⟨rfl, fun _ _ => List.not_mem_nil⟩
      · intro _
        rw [wp_bind, wp_modify, wp_bind]
        apply wp_mono (wp_of_moves SameCohorts (discard (ceaseRecognition (.remotable id))) _)
        · intro _ t hsame
          refine ⟨hsame, fun c facet hmem => ?_⟩
          split at hmem
          · cases List.mem_singleton.mp hmem
          · cases hmem
        · exact fun _ _ _ => trivial
    apply wp_mono hcheck
    · rintro exportsToRetire t ⟨hsame, hnone⟩
      rw [wp_modify]
      exact (hs'.steady (steady_of_same hsame)).scanned exportsToRetire (fun _ => rfl) hnone
    · exact fun _ _ h => h
  | presence id =>
    dsimp only
    rw [wp_bind]
    apply wp_mono (wp_of_moves SameCohorts (checkImportPresence (.presence id)) s')
    · intro dead t hsame
      have ht := hs'.steady (steady_of_same hsame)
      apply wp_ite
      · intro _
        rw [wp_bind, wp_modify]
        apply wp_mono (wp_of_moves SameCohorts (addToPossiblyRetiredSet (.presence id)) _)
        · intro _ u hsame
          have hu : Mirrors { t with scan := t.scan.map fun scan => scan.drop (.presence id) } :=
            ht.scanned [] (fun _ => rfl) fun _ _ => List.not_mem_nil
          exact hu.steady (steady_of_same hsame)
        · exact fun _ _ _ => trivial
      · exact fun _ => ht
    · exact fun _ _ _ => trivial
  | promise allocatedByVat id => exact trivial
  | device id => exact trivial

end Scans

end AgoricSdk.Liveslots
