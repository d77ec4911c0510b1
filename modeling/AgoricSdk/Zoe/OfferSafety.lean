import AgoricSdk.ERTP.LedgerSystem
import AgoricSdk.Zoe.ServiceSafety

/-!
Offer safety over whole runs of Zoe and its contract instances, whatever the
contracts do, and what becomes of it when an issuer misreports a deposit.
-/

namespace AgoricSdk.Zoe

open ERTP StateProgram

variable {β κ : Type} [DecidableEq κ] {issuers : Issuers β κ}

/-! ## The system -/

/-- Zoe and every facet are safe. -/
structure SystemSafe (issuers : Issuers β κ) (s : ZoeSystem β κ) : Prop where
  zoe : ServiceSafe issuers s.zoe
  facets : ∀ i vat, s.vats.lookup i = some vat → FacetSafe issuers s.zoe.Known vat

namespace SystemSafe

variable {s t : ZoeSystem β κ}

theorem ofTurn (hs : SystemSafe issuers s) {zoe : ZoeService β κ}
    (h : ZoeTurn issuers s.zoe zoe) : SystemSafe issuers { s with zoe } where
  zoe := (h hs.zoe).1
  facets i vat hvat := (hs.facets i vat hvat).mono fun _ _ => ServiceSafe.Known.mono (h hs.zoe).2

theorem inZoe (hs : SystemSafe issuers s) {m : ZoeM β κ Unit}
    (hm : ServiceSafe.Turned issuers m s.zoe) : SystemSafe issuers (s.inZoe m) :=
  hs.ofTurn (finalState_of_wp (P := ZoeTurn issuers s.zoe) hm)

theorem setVat (hs : SystemSafe issuers s) (i : InstanceHandle) {vat : ZCF β κ}
    (hvat : FacetSafe issuers s.zoe.Known vat) : SystemSafe issuers (s.setVat i vat) where
  zoe := hs.zoe
  facets i' vat' h := by
    rw [ZoeSystem.setVat, Table.lookup_insert] at h
    split at h
    case isTrue =>
      cases h
      exact hvat
    case isFalse => exact hs.facets i' vat' h

variable [DecidableEq β]

theorem startInstance (hs : SystemSafe issuers s) (brands : List β) :
    SystemSafe issuers (s.startInstance issuers brands) := by
  have hview : Unchanged ZoeService.seatView s.zoe (s.startInstance issuers brands).zoe := rfl
  have hzoe := hs.ofTurn (ServiceSafe.turn_of_view hview)
  refine ⟨hzoe.zoe, fun i vat hvat => ?_⟩
  rw [ZoeSystem.startInstance, Table.lookup_insert] at hvat
  split at hvat
  case isTrue =>
    cases hvat
    exact ⟨fun _ h => (by cases h), fun _ _ _ h => (by cases h), fun _ _ _ h => (by cases h),
      fun _ h => (by cases h), fun _ h => by cases h⟩
  case isFalse => exact hs.facets i vat hvat

/-- A report is stored. Only the report of a well-behaved issuer matters, and
that is the truth. -/
theorem settleDeposit (hs : SystemSafe issuers s) {n : Nat} {keyword : Keyword}
    {report : Option (Amount β κ)} (h : s.settleDeposit issuers n keyword report = some t) :
    SystemSafe issuers t := by
  simp only [ZoeSystem.settleDeposit, Option.bind_eq_bind, Option.bind_eq_some_iff] at h
  obtain ⟨o, ho, h⟩ := h
  have htruth := hs.zoe.offers n o ho
  split at h
  case isFalse => cases h
  simp only [Option.bind_eq_some_iff] at h
  obtain ⟨amount, hamount, h⟩ := h
  -- writing the report keeps the other reports
  have hreport : ∀ reported, (issuers.wellBehaved amount.brand = true → reported = amount) →
      Offer.Truthful issuers { o with
        depositing := o.depositing.erase keyword
        deposits := o.deposits.insert keyword reported } := by
    intro reported hreported keyword' reported' amount' hlookup hgive hwell
    rw [Table.lookup_insert] at hlookup
    split at hlookup
    case isTrue heq =>
      cases hlookup
      obtain rfl := Option.some.inj (hamount.symm.trans (heq ▸ hgive))
      exact hreported hwell
    case isFalse => exact htruth keyword' reported' amount' hlookup hgive hwell
  cases report with
  | none =>
    cases h
    exact hs.ofTurn (ServiceSafe.writeOffer n (o := { o with
      depositing := o.depositing.erase keyword, alive := false }) htruth _)
  | some reported =>
    dsimp only at h
    split at h
    case isTrue =>
      split at h
      case isTrue heq =>
        simp only [Option.bind_eq_some_iff] at h
        obtain ⟨balance, -, balance', -, h⟩ := h
        cases h
        have hoffer := hs.ofTurn
          (ServiceSafe.writeOffer n (hreport reported fun _ => heq) s.zoe.nextOffer)
        exact hoffer.ofTurn (ServiceSafe.turn_of_view rfl)
      case isFalse => cases h
    case isFalse hnot =>
      cases h
      exact hs.ofTurn (ServiceSafe.writeOffer n (hreport reported fun h => absurd h hnot) _)

theorem settleWithdrawal (hs : SystemSafe issuers s) {n : Nat} {fulfilled : Bool}
    (h : s.settleWithdrawal issuers n fulfilled = some t) : SystemSafe issuers t := by
  simp only [ZoeSystem.settleWithdrawal, Option.bind_eq_bind, Option.bind_eq_some_iff] at h
  obtain ⟨w, -, h⟩ := h
  split at h
  case isFalse => cases h
  split at h
  case isTrue =>
    simp only [Option.bind_eq_some_iff] at h
    obtain ⟨balance, -, h⟩ := h
    split at h
    case h_1 =>
      cases h
      exact hs.ofTurn (ServiceSafe.turn_of_view rfl)
    case h_2 =>
      cases h
      exact hs.ofTurn (ServiceSafe.turn_of_view rfl)
    case h_3 => cases h
  case isFalse =>
    cases h
    exact hs.ofTurn (ServiceSafe.turn_of_view rfl)

theorem deliverToZCF (hs : SystemSafe issuers s) {n : Nat}
    (h : s.deliverToZCF issuers n = some t) : SystemSafe issuers t := by
  simp only [ZoeSystem.deliverToZCF, Option.bind_eq_bind, Option.bind_eq_some_iff] at h
  obtain ⟨⟨i, message⟩, hmessage, vat, hvat, h⟩ := h
  split at h
  case isFalse => cases h
  cases h
  have hfacet := hs.facets i vat hvat
  have hreceived : FacetSafe issuers s.zoe.Known
      (finalState (ZCF.receive issuers.lib message) vat) := by
    refine finalState_of_wp (P := FacetSafe issuers s.zoe.Known) ?_
    cases message with
    | handleOffer d =>
      obtain ⟨hknown, hsafe⟩ := hs.zoe.sent i d (List.mem_of_getElem? hmessage)
      simp only [ZCF.receive, ZCF.handleOffer]
      refine wp_ite (fun _ => hfacet) fun _ => ?_
      simp only [ZCF.makeZCFSeat, wp_bind, wp_get, wp_modify, wp_pure]
      exact hfacet.withSeat hknown hsafe
    | recordIssuer brand assetKind zoeMint =>
      exact ⟨hfacet.handled, hfacet.active, hfacet.known, hfacet.replaced, hfacet.noEscrow⟩
  have hset := hs.setVat i hreceived
  refine ⟨⟨hs.zoe.seats, hs.zoe.numbered, hs.zoe.noEscrow, hs.zoe.offers, fun i' d hd => ?_⟩,
    hset.facets⟩
  exact hs.zoe.sent i' d (List.mem_of_mem_eraseIdx hd)

theorem deliverToZoe (hs : SystemSafe issuers s) {i : InstanceHandle}
    (h : s.deliverToZoe issuers i = some t) : SystemSafe issuers t := by
  simp only [ZoeSystem.deliverToZoe, Option.bind_eq_bind, Option.bind_eq_some_iff] at h
  obtain ⟨vat, hvat, h⟩ := h
  have hfacet := hs.facets i vat hvat
  split at h
  case h_1 => cases h
  case h_2 message sent hsent =>
    cases h
    have hmem : ∀ m ∈ sent, m ∈ vat.sent := fun m hm => hsent ▸ List.mem_cons_of_mem _ hm
    have hhead : message ∈ vat.sent := hsent ▸ List.mem_cons_self ..
    have hrest : FacetSafe issuers s.zoe.Known { vat with sent } :=
      ⟨hfacet.handled, hfacet.active, hfacet.known, fun l hl => hfacet.replaced l (hmem _ hl),
        fun d hd => hfacet.noEscrow d (hmem _ hd)⟩
    refine (hs.setVat i hrest).inZoe (ServiceSafe.receive_spec ?_ ?_)
    · rintro l rfl
      exact hfacet.replaced l hhead
    · rintro d rfl
      exact hfacet.noEscrow d hhead

theorem step (hl : issuers.lib.Lawful) (hs : SystemSafe issuers s) {a : ZoeAction β κ}
    (h : s.step issuers a = some t) : SystemSafe issuers t := by
  cases a with
  | storeIssuer brand =>
    cases h
    exact hs.inZoe (ServiceSafe.turned_of_moves _)
  | createPurse brand =>
    rw [ZoeSystem.step] at h
    split at h
    case isTrue =>
      cases h
      exact hs.inZoe (ServiceSafe.turned_of_moves _)
    case isFalse => cases h
  | startInstance brands =>
    rw [ZoeSystem.step] at h
    split at h
    case isTrue =>
      cases h
      exact hs.startInstance brands
    case isFalse => cases h
  | initDelayedState i =>
    obtain ⟨admin, -, rfl⟩ := Option.map_eq_some_iff.mp h
    exact hs.inZoe (ServiceSafe.turned_of_moves _)
  | saveIssuer i brand =>
    cases h
    exact hs.inZoe (ServiceSafe.turned_of_moves _)
  | wrapIssuerKitWithZoeMint i brand =>
    rw [ZoeSystem.step] at h
    split at h
    case isTrue =>
      cases h
      exact hs.inZoe (ServiceSafe.turned_of_moves _)
    case isFalse => cases h
  | offer i want give payments =>
    cases h
    exact hs.inZoe (ServiceSafe.turned_of_moves _)
  | settleDeposit n keyword report => exact hs.settleDeposit h
  | fulfillOffer n =>
    simp only [ZoeSystem.step, Option.bind_eq_bind, Option.bind_eq_some_iff] at h
    obtain ⟨o, ho, h⟩ := h
    split at h
    case isTrue =>
      cases h
      have hdone : ZoeTurn issuers s.zoe { s.zoe with offers := s.zoe.offers.erase n } := by
        refine fun hz => ⟨⟨hz.seats, hz.numbered, hz.noEscrow, fun m o' ho' => ?_, hz.sent⟩,
          ServiceSafe.extends_refl⟩
        rw [Table.lookup_erase] at ho'
        split at ho'
        case isTrue => cases ho'
        case isFalse => exact hz.offers m o' ho'
      exact (hs.ofTurn hdone).inZoe (ServiceSafe.depositsFulfilled_spec (hs.zoe.offers n o ho))
    case isFalse => cases h
  | settleWithdrawal n fulfilled => exact hs.settleWithdrawal h
  | finalPayouts seatHandle =>
    rw [ZoeSystem.step] at h
    split at h
    case isTrue =>
      cases h
      exact hs.inZoe (ServiceSafe.turned_of_moves _)
    case isFalse => cases h
  | deliverToZCF n => exact hs.deliverToZCF h
  | deliverToZoe i => exact hs.deliverToZoe h
  | call i method =>
    simp only [ZoeSystem.step, ZoeSystem.call, Option.bind_eq_bind, Option.bind_eq_some_iff] at h
    obtain ⟨vat, hvat, h⟩ := h
    split at h
    case isFalse => cases h
    cases h
    have hfacet := hs.facets i vat hvat
    refine hs.setVat i ?_
    have heffects := finalState_of_wp (P := ZCF.Effects issuers.lib vat)
      (ZCF.call_spec hfacet.handled method)
    -- induction on the moves that the call made
    generalize finalState (method.run issuers.lib) vat = vat' at heffects
    induction heffects with
    | refl => exact hfacet
    | tail _ hlast ih => exact ih.effect hl (fun i n p m hm => by cases hm) hlast
  | terminate i =>
    obtain ⟨vat, hvat, rfl⟩ := Option.map_eq_some_iff.mp h
    have hfacet := hs.facets i vat hvat
    exact hs.setVat i
      ⟨hfacet.handled, hfacet.active, hfacet.known, hfacet.replaced, hfacet.noEscrow⟩
  | completionWatched i =>
    simp only [ZoeSystem.step, Option.bind_eq_bind, Option.bind_eq_some_iff] at h
    obtain ⟨vat, -, h⟩ := h
    split at h
    case isTrue =>
      cases h
      exact hs.inZoe (ServiceSafe.turned_of_moves _)
    case isFalse => cases h

omit [DecidableEq β] in
theorem empty : SystemSafe issuers (emptyZoe : ZoeSystem β κ) :=
  ⟨⟨fun _ _ h => (by cases h), fun _ h => (by cases h), fun _ _ _ h => (by cases h),
    fun _ _ h => (by cases h), fun _ _ h => by cases h⟩, fun _ _ h => by cases h⟩

theorem of_reachable (hl : issuers.lib.Lawful)
    (h : (zoeSystem issuers).Reachable TransitionSystem.anyStep s) : SystemSafe issuers s :=
  h.invariant (fun _ hinit => hinit ▸ empty) fun _ _ _ hs _ hstep => hs.step hl hstep

end SystemSafe

section Runs

variable [DecidableEq β] {s : ZoeSystem β κ}

/-- In every run, a seat made by an offer that gives assets of well-behaved
issuers is offer safe: in Zoe, in what Zoe pays out for it, and in the facet. -/
theorem offer_safety (hl : issuers.lib.Lawful)
    (h : (zoeSystem issuers).Reachable TransitionSystem.anyStep s) :
    (∀ n seat, s.zoe.seatHandleToZoeSeatAdmin.lookup (.zoe n) = some seat →
      GivesWellBehaved issuers seat.proposal →
      OfferSafe seat.proposal seat.currentAllocation ∧
      (∀ a, seat.withdrawn = some a → OfferSafe seat.proposal a) ∧
      ∀ a, seat.payouts = some a → OfferSafe seat.proposal a) ∧
    ∀ i vat zcfSeat n a, s.vats.lookup i = some vat →
      vat.zcfSeatToSeatHandle.lookup zcfSeat = some (.zoe n) →
      vat.activeZCFSeats.lookup zcfSeat = some a →
      ∃ seat, s.zoe.seatHandleToZoeSeatAdmin.lookup (.zoe n) = some seat ∧
        vat.proposals.lookup zcfSeat = some seat.proposal ∧
        (GivesWellBehaved issuers seat.proposal → OfferSafe seat.proposal a) := by
  have hs := SystemSafe.of_reachable hl h
  refine ⟨fun n seat hseat hgives => ?_, fun i vat zcfSeat n a hvat hhandle hactive => ?_⟩
  · have hsafe := hs.zoe.seats (.zoe n) seat hseat
    exact ⟨hsafe.currentAllocation hgives, fun a ha => hsafe.withdrawn a ha hgives,
      fun a ha => hsafe.payouts a ha hgives⟩
  · have hfacet := hs.facets i vat hvat
    obtain ⟨p, hp⟩ := Option.isSome_iff_exists.mp
      (hfacet.handled zcfSeat (Table.has_of_lookup hactive)).2
    obtain ⟨seat, hseat, rfl⟩ := hfacet.known zcfSeat _ p hhandle hp n rfl
    exact ⟨seat, hseat, hp, hfacet.active zcfSeat a _ hactive hp⟩

end Runs

/-! ## Runs with fungible assets -/

/-- Fungible issuers, numbered by their brands. -/
def numberIssuer (brand : Nat) : Issuer Nat Nat := { moola with brand }

/-- All of them are well-behaved, except the one of brand 0. -/
def numberIssuers : Issuers Nat Nat where
  lib := numberStore
  issuer := numberIssuer
  issuer_brand := fun _ => rfl
  issuer_lib := fun _ => rfl
  wellBehaved := fun brand => brand ≠ 0

def units (brand : Nat) (n : Int) : Amount Nat Nat := { brand, value := .bigint n }

/-- An offer of 5 units of the brand for 3 units of brand 2, up to the seat in
the contract facet. The purse answers the deposit with the report. -/
def offerRun (brand : Nat) (report : Amount Nat Nat) : List (ZoeAction Nat Nat) :=
  [.storeIssuer brand, .createPurse brand, .storeIssuer 2, .createPurse 2,
    .startInstance [brand, 2], .initDelayedState 0,
    .offer 0 (Record.singleton "Want" (.amount (units 2 3)))
      (Record.singleton "Give" (.amount (units brand 5))) ["Give"],
    .settleDeposit 0 "Give" (some report), .fulfillOffer 0, .deliverToZCF 0]

/-- The amounts of the first seat: given, wanted, and allotted for each. -/
def firstSeat (s : ZoeSystem Nat Nat) : Option (Option (Amount Nat Nat) ×
    Option (AmountPattern Nat Nat) × Option (Amount Nat Nat) × Option (Amount Nat Nat)) :=
  (s.zoe.seatHandleToZoeSeatAdmin.lookup (.zoe 0)).map fun seat =>
    (seat.proposal.give.get "Give", seat.proposal.want.get "Want",
      seat.currentAllocation.get "Give", seat.currentAllocation.get "Want")

theorem offer_safety_of_five : ∃ s seat,
    (zoeSystem numberIssuers).runWhile TransitionSystem.anyStep emptyZoe
      (offerRun 1 (units 1 5)) = some s ∧
    s.zoe.seatHandleToZoeSeatAdmin.lookup (.zoe 0) = some seat ∧
    seat.proposal.give.get "Give" = some (units 1 5) ∧
    OfferSafe seat.proposal seat.currentAllocation := by
  have hvalues : ((zoeSystem numberIssuers).runWhile TransitionSystem.anyStep emptyZoe
      (offerRun 1 (units 1 5))).bind (fun s => (firstSeat s).map fun v =>
        (v.1, (s.zoe.seatHandleToZoeSeatAdmin.lookup (.zoe 0)).map fun seat =>
          seat.proposal.give.keys)) =
      some (some (units 1 5), some ["Give"]) := by decide
  obtain ⟨s, hs, hvalues⟩ := Option.bind_eq_some_iff.mp hvalues
  have hreach : (zoeSystem numberIssuers).Reachable TransitionSystem.anyStep s :=
    TransitionSystem.Reachable.of_runWhile (.init rfl) hs
  cases hseat : s.zoe.seatHandleToZoeSeatAdmin.lookup (.zoe 0) with
  | none => simp [firstSeat, hseat] at hvalues
  | some seat =>
    simp only [firstSeat, hseat, Option.map_some, Option.some.injEq, Prod.mk.injEq] at hvalues
    obtain ⟨hgive, hkeys⟩ := hvalues
    have hgives : GivesWellBehaved numberIssuers seat.proposal := by
      intro keyword amount hget
      have hmem : keyword ∈ seat.proposal.give.keys := Record.mem_keys_iff.mpr ⟨amount, hget⟩
      rw [hkeys, List.mem_singleton] at hmem
      rw [hmem, hgive] at hget
      cases hget
      rfl
    exact ⟨s, seat, hs, hseat, hgive,
      ((offer_safety numberStore_lawful hreach).1 0 seat hseat hgives).1⟩

/-- The issuer of brand 0 reports a deposit of 1 in place of 5. -/
theorem not_offerSafe_of_misreport : ¬ ∀ s : ZoeSystem Nat Nat,
    (zoeSystem numberIssuers).Reachable TransitionSystem.anyStep s →
    ∀ n seat, s.zoe.seatHandleToZoeSeatAdmin.lookup (.zoe n) = some seat →
      OfferSafe seat.proposal seat.currentAllocation := by
  intro hall
  have hvalues : ((zoeSystem numberIssuers).runWhile TransitionSystem.anyStep emptyZoe
      (offerRun 0 (units 0 1))).bind firstSeat =
      some (some (units 0 5), some (.amount (units 2 3)), some (units 0 1), some (units 2 0)) := by
    decide
  obtain ⟨s, hs, hvalues⟩ := Option.bind_eq_some_iff.mp hvalues
  have hreach : (zoeSystem numberIssuers).Reachable TransitionSystem.anyStep s :=
    TransitionSystem.Reachable.of_runWhile (.init rfl) hs
  obtain ⟨seat, hseat, hvalues⟩ := Option.map_eq_some_iff.mp hvalues
  simp only [Prod.mk.injEq] at hvalues
  obtain ⟨hgive, hwant, hgiven, hwanted⟩ := hvalues
  rcases hall s hreach 0 seat hseat with hsafe | hsafe
  · obtain ⟨allotted, hallotted, -, hle⟩ := hsafe "Give" _ hgive
    obtain rfl := Option.some.inj (hgiven.symm.trans hallotted)
    exact absurd (hle none) (by decide)
  · obtain ⟨amount, allotted, hpattern, hallotted, -, hle⟩ := hsafe "Want" _ hwant
    cases hpattern
    obtain rfl := Option.some.inj (hwanted.symm.trans hallotted)
    exact absurd (hle none) (by decide)

end AgoricSdk.Zoe
