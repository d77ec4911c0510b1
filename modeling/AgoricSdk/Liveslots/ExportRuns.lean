import AgoricSdk.Liveslots.KindDefinitions

/-!
The records of the export status through the runs of a vat. What `getExportStatus`
makes of a record is right but for one spelling: it takes a record of the single
letter `s` for the one of an unfaceted object.
-/

namespace AgoricSdk.Liveslots

open SwingSet StateProgram KeyWalk

variable {s t : Vat} {c : Cohort} {facet : Option Nat} {kindInfo : KindInfo}
  {status : ExportStatus}

section Runs

variable {a : VatAction}

theorem Mirrors.fresh : Mirrors Vat.fresh := by
  have hclist : ∀ c facet, Vat.fresh.clist.lookup (.representative c facet) = none :=
    fun c facet => (Table.lookup_insert ..).trans (if_neg fun h => by cases h)
  constructor
  case toRegistered =>
    constructor
    case initialized => exact fun _ _ h => h
    case exportID => exact Nat.le_refl _
    case defined => exact fun _ _ h => Or.inl h
    case described => exact fun _ h => by cases h
  case toGrounded =>
    constructor
    case held =>
      intro c hmem
      change _ ∈ [baggageRef, rootObject] at hmem
      rw [List.mem_cons, List.mem_singleton] at hmem
      rcases hmem with heq | heq
      · cases heq
        refine ⟨⟨_, initialKinds_store .scalarDurableMapStore, rfl⟩, fun hc => ?_⟩
        cases hc.1
      · cases heq
    case stores =>
      intro collectionID kind h
      change (Table.insert ∅ 1 StoreKind.scalarDurableMapStore).lookup collectionID = _ at h
      rw [Table.lookup_insert] at h
      split at h
      case isTrue heq =>
        rw [heq]
        exact Nat.lt_succ_self 1
      case isFalse => cases h
    case exported =>
      intro c facet flag hflag
      rw [hclist] at hflag
      cases hflag
    case recorded => exact fun _ _ h => by cases h
  case retired => exact fun _ _ h => by cases h
  case mirrored =>
    intro c facet kindInfo _ _
    left
    rw [hclist, letter_of_no_record rfl]
    rfl

theorem run_mirrors {program : LM PUnit}
    (hprogram : Wp program (fun _ t => Mirrors t) (fun _ t => Mirrors t) s)
    (h : s.run program = some t) : Mirrors t := by
  cases h
  exact finalState_of_wp hprogram

theorem run_steady {program : LM PUnit} [Moves Steady program] (hs : Mirrors s)
    (h : s.run program = some t) : Mirrors t := by
  apply run_mirrors _ h
  exact wp_mono (wp_of_moves Steady program s) (fun _ _ h => hs.steady h) fun _ _ h => hs.steady h

theorem deliver_mirrors {program : LM PUnit}
    (hprogram : Wp program (fun _ t => t.terminated = false → Mirrors t) (fun _ _ => True) s)
    (h : s.deliver program = some t) (ht : t.terminated = false) : Mirrors t := by
  unfold Vat.deliver at h
  unfold Wp at hprogram
  cases hrun : program s with
  | ok _ u =>
    rw [hrun] at h hprogram
    cases h
    exact hprogram ht
  | error _ u =>
    rw [hrun] at h
    cases h
    cases ht

theorem Mirrors.made (hs : Mirrors s) (h : s.receivable (.representative c facet)) :
    Made s c := by
  obtain ⟨hpresent, kindInfo, hinfo, hdurable, -⟩ := h
  refine ⟨⟨kindInfo, hinfo, hdurable⟩, fun hc => ?_⟩
  obtain ⟨kind, hmem, hkind⟩ := hc.2
  unfold Vat.present at hpresent
  have hne : c.kindID ≠ kindIDID := by
    rw [hkind]
    cases kind <;> decide
  rw [if_neg hne, if_pos ⟨kind, hmem, hkind⟩] at hpresent
  obtain ⟨kind', -, hlookup, -⟩ := hpresent
  exact hs.stores _ _ hlookup

theorem userStep_mirrors (hs : Mirrors s) (hscan : s.scan = none) (h : s.userStep a = some t) :
    Mirrors t := by
  cases a
  case makeRemotable =>
    apply run_mirrors _ h
    unfold allocateExportID
    simp only [wp_bind, wp_get, wp_modify, wp_pure]
    have hregister : Wp (registerValue (.remotable s.exportID))
        (fun _ t => Steady { s with exportID := s.exportID + 1 } t) (fun _ _ => False)
        { s with exportID := s.exportID + 1 } :=
      registerValue_steady fun _ h => by cases h
    exact wp_mono hregister (fun _ _ h => hs.allocated.steady h) fun _ _ h => h.elim
  case makePromise =>
    apply run_mirrors _ h
    simp only [wp_bind, wp_get, wp_modify]
    have hregister : Wp (registerValue (.promise true s.promiseID))
        (fun _ t => Steady { s with promiseID := s.promiseID + 1 } t) (fun _ _ => False)
        { s with promiseID := s.promiseID + 1 } :=
      registerValue_steady fun _ h => by cases h
    have hs' : Mirrors { s with promiseID := s.promiseID + 1 } := hs.steady (steady_of_same rfl)
    exact wp_mono hregister (fun _ _ h => hs'.steady h) fun _ _ h => h.elim
  case receive vref =>
    dsimp only [Vat.userStep] at h
    split at h
    case isFalse => cases h
    case isTrue hreceivable =>
      apply run_mirrors _ h
      have hmade : ∀ c, vref.baseRef = .representative c none → Made s c := by
        intro c hc
        cases vref with
        | representative d facet =>
          cases hc
          exact hs.made hreceivable
        | _ => cases hc
      exact wp_mono (registerValue_steady hmade) (fun _ _ h => hs.steady h) fun _ _ h => h.elim
  case forget vref =>
    dsimp only [Vat.userStep] at h
    split at h
    case isFalse => cases h
    case isTrue =>
      cases h
      exact hs.steady ⟨rfl, Nat.le_refl _, fun _ _ h => Or.inl h,
        fun _ h => Or.inl (List.mem_filter.mp h).1⟩
  case defineKind multifaceted behavior =>
    exact run_mirrors (defineKind_mirrors hs multifaceted behavior) h
  case makeKindHandle => exact run_mirrors (makeKindHandle_mirrors hs) h
  case defineDurableKind kindID multifaceted behavior stateShape =>
    dsimp only [Vat.userStep] at h
    split at h
    case isFalse => cases h
    case isTrue =>
      exact run_mirrors (defineDurableKind_mirrors hs kindID multifaceted behavior stateShape) h
  case makeNewInstance kindID initialData =>
    dsimp only [Vat.userStep] at h
    split at h
    case isFalse => cases h
    case isTrue hdeleter =>
      have hkind : ∀ kind ∈ storeKinds, kindID ≠ kind.kindID := by
        rintro kind - rfl
        have hinfo := hs.initialized _ _ (initialKinds_store kind)
        rw [hinfo] at hdeleter
        cases hdeleter.2
      have hmoves := makeNewInstance_steady initialData hkind
      exact run_steady hs h
  case makeCollection kind schema =>
    dsimp only [Vat.userStep] at h
    split at h
    case isFalse => cases h
    case isTrue =>
      apply run_mirrors _ h
      exact wp_mono (makeCollection_steady hs.initialized kind schema) (fun _ _ h => hs.steady h)
        fun _ _ h => hs.steady h
  case exportSlots slots =>
    dsimp only [Vat.userStep] at h
    split at h
    case isFalse => cases h
    case isTrue hheld =>
      apply run_mirrors _ h
      exact wp_mono (exportSlots_mirrors hs hscan hheld) (fun _ _ h => h) fun _ _ h => h.elim
  all_goals
    dsimp only [Vat.userStep] at h
    repeat' split at h
    all_goals first
      | exact run_steady hs h
      | cases h

theorem deliveryStep_mirrors (hs : Mirrors s) (hscan : s.scan = none)
    (h : s.deliveryStep a = some t) (ht : t.terminated = false) : Mirrors t := by
  cases a
  case dropExports vrefs =>
    dsimp only [Vat.deliveryStep] at h
    split at h
    case isFalse => cases h
    case isTrue hflag =>
      apply deliver_mirrors _ h ht
      exact wp_mono (dropExports_mirrors hs hscan hflag.2) (fun _ _ h _ => h) fun _ _ h => h
  case retireExports vrefs =>
    dsimp only [Vat.deliveryStep] at h
    split at h
    case isFalse => cases h
    case isTrue hflag =>
      apply deliver_mirrors _ h ht
      exact wp_mono (retireExports_mirrors hs hscan hflag.2) (fun _ _ h _ => h) fun _ _ h => h
  case retireImports vrefs =>
    dsimp only [Vat.deliveryStep] at h
    split at h
    case isFalse => cases h
    case isTrue =>
      apply deliver_mirrors _ h ht
      exact wp_mono (wp_of_moves Steady (retireImports vrefs) s) (fun _ _ h _ => hs.steady h)
        fun _ _ _ => trivial
  case startScan =>
    cases h
    apply hs.rescanned
    intro c facet
    rw [Vat.retiring, Vat.retiring, hscan]
    exact Iff.rfl
  case upgrade =>
    cases h
    exact hs.upgraded hscan
  all_goals cases h

theorem scanStep_mirrors {scan : Scan} (hs : Mirrors s) (hscan : s.scan = some scan)
    (h : s.scanStep scan a = some t) (ht : t.terminated = false) : Mirrors t := by
  cases a
  case scanOne vref =>
    dsimp only [Vat.scanStep] at h
    split at h
    case isFalse => cases h
    case isTrue =>
      apply deliver_mirrors _ h ht
      exact wp_mono (scanOne_mirrors hs hscan) (fun _ _ h _ => h) fun _ _ h => h
  case finishScan =>
    dsimp only [Vat.scanStep] at h
    split at h
    case isFalse => cases h
    case isTrue => exact deliver_mirrors (finishScan_mirrors hs hscan) h ht
  case finalize baseRef =>
    dsimp only [Vat.scanStep, Vat.userStep] at h
    split at h
    case isFalse => cases h
    case isTrue => exact run_steady hs h
  case finalizeWeakCollection m => exact run_steady hs h
  all_goals cases h

theorem step_mirrors (hs : Mirrors s) (h : s.step a = some t) (ht : t.terminated = false) :
    Mirrors t := by
  unfold Vat.step at h
  split at h
  case isTrue => cases h
  case isFalse =>
    split at h
    case h_1 scan hscan => exact scanStep_mirrors hs hscan h ht
    case h_2 hscan =>
      split at h
      case h_1 =>
        split at h
        case isTrue =>
          cases h
          exact hs.steady (steady_of_same rfl)
        case isFalse => cases h
      case h_2 =>
        rw [Option.orElse_eq_or, Option.or_eq_some_iff] at h
        rcases h with huser | ⟨-, hdelivery⟩
        · exact userStep_mirrors hs hscan huser
        · split at hdelivery
          case isTrue => exact deliveryStep_mirrors hs hscan hdelivery ht
          case isFalse => cases hdelivery

theorem mirrors_of_reachable (h : vat.Reachable TransitionSystem.anyStep s)
    (hs : s.terminated = false) : Mirrors s := by
  have hall : s.terminated = false → Mirrors s := by
    apply h.invariant (I := fun s => s.terminated = false → Mirrors s)
    · rintro s rfl -
      exact Mirrors.fresh
    · intro s a t hs _ hstep ht
      have hlives : s.terminated = false := by
        change s.step a = some t at hstep
        unfold Vat.step at hstep
        cases hterminated : s.terminated with
        | false => rfl
        | true =>
          rw [if_pos hterminated] at hstep
          cases hstep
      exact step_mirrors (hs hlives) hstep ht
  exact hall hs

end Runs

section Status

/-- What `getExportStatus` says of a cohort is what the kernel's table has. -/
structure StatusMatches (s : Vat) (c : Cohort) : Prop where
  reachable : (s.getExportStatus c).1 = true ↔
    ∃ vref, vref.baseRef = .representative c none ∧ s.clist.lookup vref = some true
  retirees : (s.getExportStatus c).1 = false → (s.getExportStatus c).2.Nodup ∧
    ∀ vref, vref ∈ (s.getExportStatus c).2 ↔
      vref.baseRef = .representative c none ∧ s.clist.has vref = true

/-- The record of facets reads like the one of an unfaceted object. -/
def Vat.misreads (s : Vat) (c : Cohort) (kindInfo : KindInfo) : Prop :=
  kindInfo.facetNames.isSome = true ∧ s.record c = [.recognizable]

/-- The records and the kernel's table agree about the cohort. -/
structure Agrees (s : Vat) (c : Cohort) (kindInfo : KindInfo) : Prop where
  length : (s.record c).length ≤ kindInfo.facetCount
  flags : ∀ facet, kindInfo.hasFacet facet →
    s.clist.lookup (.representative c facet) = (s.letter c facet).flag
  others : ∀ facet, ¬ kindInfo.hasFacet facet →
    s.clist.lookup (.representative c facet) = none

theorem Mirrors.agrees (hs : Mirrors s) (hc : Current s c kindInfo)
    (hretiring : ∀ vref ∈ s.retiring, vref.baseRef ≠ .representative c none) :
    Agrees s c kindInfo where
  length := hs.bounded.record hc.shape
  flags := fun facet hfacet => by
    rcases hs.mirrored c facet kindInfo hc hfacet with heq | hp
    · exact heq
    · rcases hp.retiring with hmem | ⟨hmem, -⟩
      · exact absurd rfl (hretiring _ hmem)
      · exact absurd rfl (hretiring _ hmem)
  others := fun _ hfacet => hs.not_exported hc.shape hfacet

theorem exists_of_baseRef {vref : VRef} (h : vref.baseRef = .representative c none) :
    ∃ facet, vref = .representative c facet := by
  cases vref with
  | representative d facet =>
    cases h
    exact ⟨facet, rfl⟩
  | _ => cases h

theorem Agrees.lookup_iff {flag : Bool} (h : Agrees s c kindInfo) (letter : ExportStatus)
    (hflag : letter.flag = some flag) :
    s.clist.lookup (.representative c facet) = some flag ↔
      kindInfo.hasFacet facet ∧ s.letter c facet = letter := by
  by_cases hfacet : kindInfo.hasFacet facet
  · rw [h.flags facet hfacet, ← hflag]
    constructor
    · intro heq
      refine ⟨hfacet, ?_⟩
      cases hs : s.letter c facet <;> cases letter <;> rw [hs] at heq <;> first | rfl | cases heq
    · rintro ⟨-, rfl⟩
      rfl
  · rw [h.others facet hfacet]
    exact iff_of_false (fun heq => by cases heq) fun hand => hfacet hand.1

theorem letter_iff {i : Nat} (hstatus : status ≠ .none) (hi : facet.getD 0 = i) :
    s.letter c facet = status ↔ (s.record c)[i]? = some status := by
  rw [Vat.letter, hi]
  constructor
  · exact getElem?_of_getD hstatus
  · intro h
    rw [List.getD_eq_getElem?_getD, h, Option.getD_some]

theorem Agrees.reachable_iff (h : Agrees s c kindInfo) :
    (s.getExportStatus c).1 = true ↔
      ∃ vref, vref.baseRef = .representative c none ∧ s.clist.lookup vref = some true := by
  rw [getExportStatus_eq, exportStatus_reachable_iff, List.mem_iff_getElem?]
  constructor
  · rintro ⟨i, hi⟩
    obtain ⟨hlt, -⟩ := List.getElem?_eq_some_iff.mp hi
    obtain ⟨facet, hfacet, hget⟩ := exists_hasFacet (Nat.lt_of_lt_of_le hlt h.length)
    refine ⟨.representative c facet, rfl, (h.lookup_iff .reachable rfl).mpr ?_⟩
    exact ⟨hfacet, (letter_iff (fun h => by cases h) hget).mpr hi⟩
  · rintro ⟨vref, hbase, hlookup⟩
    obtain ⟨facet, rfl⟩ := exists_of_baseRef hbase
    obtain ⟨-, hletter⟩ := (h.lookup_iff .reachable rfl).mp hlookup
    exact ⟨facet.getD 0, (letter_iff (fun h => by cases h) rfl).mp hletter⟩

theorem Agrees.has_iff (h : Agrees s c kindInfo) (hreachable : .reachable ∉ s.record c) :
    s.clist.has (.representative c facet) = true ↔
      kindInfo.hasFacet facet ∧ s.letter c facet = .recognizable := by
  rw [← h.lookup_iff .recognizable rfl, Table.has, Option.isSome_iff_exists]
  constructor
  · rintro ⟨flag, hflag⟩
    cases flag with
    | false => exact hflag
    | true =>
      have hletter := ((h.lookup_iff .reachable rfl).mp hflag).2
      exact absurd (List.mem_of_getElem? ((letter_iff (fun h => by cases h) rfl).mp hletter))
        hreachable
  · exact fun hflag => ⟨false, hflag⟩

theorem Agrees.mem_retirees_iff {vref : VRef} (h : Agrees s c kindInfo)
    (hreachable : .reachable ∉ s.record c) (hread : ¬ s.misreads c kindInfo) :
    vref ∈ (s.getExportStatus c).2 ↔
      vref.baseRef = .representative c none ∧ s.clist.has vref = true := by
  rw [getExportStatus_eq]
  constructor
  · intro hmem
    have hbase := baseRef_of_retiree hmem
    obtain ⟨facet, rfl⟩ := exists_of_baseRef hbase
    refine ⟨hbase, (h.has_iff hreachable).mpr ?_⟩
    by_cases hrecord : s.record c = [.recognizable]
    · have hnames : kindInfo.facetNames = none := by
        cases hnames : kindInfo.facetNames with
        | none => rfl
        | some names => exact absurd ⟨by rw [hnames]; rfl, hrecord⟩ hread
      rw [hrecord, retirees_singleton, List.mem_singleton] at hmem
      cases hmem
      refine ⟨?_, (letter_iff (fun h => by cases h) rfl).mpr (by rw [hrecord]; rfl)⟩
      unfold KindInfo.hasFacet
      rw [hnames]
    · obtain ⟨i, heq, hi⟩ := (mem_retirees hreachable hrecord).mp hmem
      cases heq
      refine ⟨?_, (letter_iff (fun h => by cases h) rfl).mpr hi⟩
      obtain ⟨hlt, -⟩ := List.getElem?_eq_some_iff.mp hi
      have hcount := Nat.lt_of_lt_of_le hlt h.length
      unfold KindInfo.hasFacet
      cases hnames : kindInfo.facetNames with
      | none =>
        rw [KindInfo.facetCount, hnames] at hcount
        have hzero : i = 0 := Nat.lt_one_iff.mp hcount
        subst hzero
        have hget : (s.record c).getD 0 .none = .recognizable := by
          rw [List.getD_eq_getElem?_getD, hi, Option.getD_some]
        exact absurd (unfaceted_record hnames h.length hget) hrecord
      | some names =>
        rw [KindInfo.facetCount, hnames] at hcount
        exact ⟨i, hcount, rfl⟩
  · rintro ⟨hbase, hhas⟩
    obtain ⟨facet, rfl⟩ := exists_of_baseRef hbase
    obtain ⟨hfacet, hletter⟩ := (h.has_iff hreachable).mp hhas
    rcases retired_or_misread hfacet h.length hreachable hletter with hmem | ⟨hmem, hnone⟩
    · exact hmem
    · -- the whole cohort is retired for a facet
      by_cases hrecord : s.record c = [.recognizable]
      · refine absurd ⟨?_, hrecord⟩ hread
        cases hnames : kindInfo.facetNames with
        | none => exact absurd (by unfold KindInfo.hasFacet; rw [hnames]) hnone
        | some names => rfl
      · obtain ⟨i, heq, -⟩ := (mem_retirees hreachable hrecord).mp hmem
        cases heq

def methods : Behavior := .object [(.inl "poke", .function)]

def twoFacets : Behavior := .object [(.inl "admin", methods), (.inl "user", methods)]

def firstObject : Cohort := ⟨false, 10, 1⟩

/-- A facet is exported and dropped. -/
def dropFacet (behavior : Behavior) (facet : Nat) : List VatAction :=
  [.defineKind true behavior, .makeNewInstance 10 [],
    .exportSlots [.representative firstObject (some facet)], .afterDispatch,
    .insistAllDurableKindsReconnected, .dropExports [.representative firstObject (some facet)]]

def oneFacet : Behavior := .object [(.inl "self", methods)]

end Status

end AgoricSdk.Liveslots
