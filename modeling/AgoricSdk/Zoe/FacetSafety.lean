import AgoricSdk.Zoe.AllocationSpecs
import AgoricSdk.Zoe.FacetEffects

/-!
Offer safety in one contract facet. A seat starts with a safe allocation, every
move of the facet replaces allocations by safe ones only, and what the facet
sends to Zoe names safe allocations only.
-/

namespace AgoricSdk.Zoe

open ERTP StateProgram

variable {β κ : Type} [DecidableEq κ]

/-- All that the proposal gives has a well-behaved issuer. -/
def GivesWellBehaved (issuers : Issuers β κ) (proposal : ProposalRecord β κ) : Prop :=
  ∀ keyword amount, proposal.give.get keyword = some amount →
    issuers.wellBehaved amount.brand = true

/-- Offer safety as far as Zoe can promise it. -/
def SafeFor (issuers : Issuers β κ) (proposal : ProposalRecord β κ) (allocation : Allocation β κ) :
    Prop :=
  GivesWellBehaved issuers proposal → OfferSafe proposal allocation

variable {issuers : Issuers β κ}

/-! ## The facet -/

/-- The invariant of one facet; `Known` says which proposals Zoe may have for a
handle. -/
structure FacetSafe (issuers : Issuers β κ) (Known : SeatHandle → ProposalRecord β κ → Prop)
    (vat : ZCF β κ) : Prop where
  handled : vat.Handled
  active : ∀ zcfSeat a p, vat.activeZCFSeats.lookup zcfSeat = some a →
    vat.proposals.lookup zcfSeat = some p → SafeFor issuers p a
  known : ∀ zcfSeat h p, vat.zcfSeatToSeatHandle.lookup zcfSeat = some h →
    vat.proposals.lookup zcfSeat = some p → Known h p
  replaced : ∀ l, .replaceAllocations l ∈ vat.sent →
    ∀ e ∈ l, ∃ p, Known e.1 p ∧ SafeFor issuers p e.2
  noEscrow : ∀ d, .makeNoEscrowSeat d ∈ vat.sent →
    d.proposal.give = ∅ ∧ ∃ i n, d.seatHandle = .zcf i n

section Facet

variable {Known : SeatHandle → ProposalRecord β κ → Prop} {s t : ZCF β κ}

theorem FacetSafe.mono {Known' : SeatHandle → ProposalRecord β κ → Prop}
    (h : FacetSafe issuers Known s) (hk : ∀ h p, Known h p → Known' h p) :
    FacetSafe issuers Known' s where
  handled := h.handled
  active := h.active
  known zcfSeat handle p hh hp := hk _ _ (h.known zcfSeat handle p hh hp)
  replaced l hl e he := by
    obtain ⟨p, hp, hsafe⟩ := h.replaced l hl e he
    exact ⟨p, hk _ _ hp, hsafe⟩
  noEscrow := h.noEscrow

theorem FacetSafe.send (h : FacetSafe issuers Known s) (message : ZoeMessage β κ)
    (hreplaced : ∀ l, message = .replaceAllocations l →
      ∀ e ∈ l, ∃ p, Known e.1 p ∧ SafeFor issuers p e.2)
    (hnoEscrow : ∀ d, message = .makeNoEscrowSeat d →
      d.proposal.give = ∅ ∧ ∃ i n, d.seatHandle = .zcf i n) :
    FacetSafe issuers Known { s with sent := s.sent ++ [message] } where
  handled := h.handled
  active := h.active
  known := h.known
  replaced l hl := by
    rcases List.mem_append.mp hl with hl | hl
    · exact h.replaced l hl
    · exact hreplaced l (List.mem_singleton.mp hl).symm
  noEscrow d hd := by
    rcases List.mem_append.mp hd with hd | hd
    · exact h.noEscrow d hd
    · exact hnoEscrow d (List.mem_singleton.mp hd).symm

theorem FacetSafe.withSeat (h : FacetSafe issuers Known s) {d : SeatData β κ}
    (hknown : Known d.seatHandle d.proposal)
    (hsafe : SafeFor issuers d.proposal d.initialAllocation) :
    FacetSafe issuers Known (s.withSeat d) where
  handled zcfSeat hactive := by
    rcases Table.has_insert_iff.mp hactive with heq | hold
    · exact ⟨Table.has_insert_iff.mpr (.inl heq), Table.has_insert_iff.mpr (.inl heq)⟩
    · exact ⟨Table.has_insert_iff.mpr (.inr (h.handled _ hold).1),
        Table.has_insert_iff.mpr (.inr (h.handled _ hold).2)⟩
  active zcfSeat a p ha hp := by
    simp only [ZCF.withSeat, Table.lookup_insert] at ha hp
    split at ha
    case isTrue heq =>
      cases ha
      rw [if_pos heq] at hp
      cases hp
      exact hsafe
    case isFalse hne =>
      rw [if_neg hne] at hp
      exact h.active zcfSeat a p ha hp
  known zcfSeat handle p hh hp := by
    simp only [ZCF.withSeat, Table.lookup_insert] at hh hp
    split at hh
    case isTrue heq =>
      cases hh
      rw [if_pos heq] at hp
      cases hp
      exact hknown
    case isFalse hne =>
      rw [if_neg hne] at hp
      exact h.known zcfSeat handle p hh hp
  replaced := h.replaced
  noEscrow := h.noEscrow

theorem FacetSafe.setAllocations (h : FacetSafe issuers Known s)
    (es : List (ZCFSeat × Allocation β κ)) (hactive : ∀ e ∈ es, s.activeZCFSeats.has e.1 = true)
    (hsafe : ∀ e ∈ es, ∀ p, s.proposals.lookup e.1 = some p → SafeFor issuers p e.2) :
    FacetSafe issuers Known
      { s with activeZCFSeats := ZCF.setAllocations s.activeZCFSeats es } where
  handled zcfSeat hnew := h.handled zcfSeat (ZCF.has_setAllocations hnew hactive)
  active := by
    have hloop : ∀ (es : List (ZCFSeat × Allocation β κ)) (active : Table ZCFSeat (Allocation β κ)),
        (∀ zcfSeat a p, active.lookup zcfSeat = some a →
          s.proposals.lookup zcfSeat = some p → SafeFor issuers p a) →
        (∀ e ∈ es, ∀ p, s.proposals.lookup e.1 = some p → SafeFor issuers p e.2) →
        ∀ zcfSeat a p, (ZCF.setAllocations active es).lookup zcfSeat = some a →
          s.proposals.lookup zcfSeat = some p → SafeFor issuers p a := by
      intro es
      induction es with
      | nil => exact fun active hold _ => hold
      | cons e es ih =>
        intro active hold hes
        refine ih _ (fun zcfSeat a p ha hp => ?_) fun e' he' => hes e' (List.mem_cons_of_mem _ he')
        rw [Table.lookup_insert] at ha
        split at ha
        case isTrue heq =>
          cases ha
          exact hes e (List.mem_cons_self ..) p (heq ▸ hp)
        case isFalse => exact hold zcfSeat a p ha hp
    exact hloop es _ h.active hsafe
  known := h.known
  replaced := h.replaced
  noEscrow := h.noEscrow

theorem FacetSafe.eraseSeat (h : FacetSafe issuers Known s) (zcfSeat : ZCFSeat) :
    FacetSafe issuers Known { s with
      activeZCFSeats := s.activeZCFSeats.erase zcfSeat
      zcfSeatToSeatHandle := s.zcfSeatToSeatHandle.erase zcfSeat } where
  handled seat hactive := by
    obtain ⟨hne, hold⟩ := Table.has_erase_iff.mp hactive
    exact ⟨Table.has_erase_iff.mpr ⟨hne, (h.handled _ hold).1⟩, (h.handled _ hold).2⟩
  active seat a p ha hp := by
    rw [Table.lookup_erase] at ha
    split at ha
    case isTrue => cases ha
    case isFalse => exact h.active seat a p ha hp
  known seat handle p hh hp := by
    rw [Table.lookup_erase] at hh
    split at hh
    case isTrue => cases hh
    case isFalse => exact h.known seat handle p hh hp
  replaced := h.replaced
  noEscrow := h.noEscrow

variable [DecidableEq β] (hl : issuers.lib.Lawful)

include hl

theorem safeFor_of_seatIsOfferSafe {zcfSeat : ZCFSeat} {a : Allocation β κ} {p : ProposalRecord β κ}
    (h : ZCF.seatIsOfferSafe issuers.lib s zcfSeat a = some true)
    (hp : s.proposals.lookup zcfSeat = some p) : SafeFor issuers p a := by
  simp only [ZCF.seatIsOfferSafe, hp, Option.bind_eq_bind, Option.bind_some] at h
  exact fun _ => offerSafe_of_isOfferSafe hl h

/-- A mint's change of an allocation keeps the keywords, so that the check of
the merged allocation is a check of the new one. -/
theorem FacetSafe.revalue (h : FacetSafe issuers Known s) {brand : β} {zcfSeat : ZCFSeat}
    {handle : SeatHandle} {current new : Allocation β κ} {record : AmountKeywordRecord β κ}
    {total : Amount β κ}
    (hr : ZCF.Revalued issuers.lib s brand zcfSeat handle current new record total)
    (hcovers : ∀ keyword a, current.get keyword = some a → ∃ a', new.get keyword = some a') :
    FacetSafe issuers Known { s with activeZCFSeats := s.activeZCFSeats.insert zcfSeat new } ∧
      ∃ p, Known handle p ∧ SafeFor issuers p new := by
  have hactive := Table.has_of_lookup hr.active
  obtain ⟨p, hp⟩ := Option.isSome_iff_exists.mp (h.handled zcfSeat hactive).2
  have hsafe : ∀ p, s.proposals.lookup zcfSeat = some p → SafeFor issuers p new := by
    intro p hp hgives
    refine (safeFor_of_seatIsOfferSafe hl hr.offerSafe hp hgives).congr fun keyword => ?_
    exact (get_spread_of_covers hcovers keyword).symm
  refine ⟨?_, p, h.known zcfSeat handle p hr.handle hp, hsafe p hp⟩
  have hset := h.setAllocations [(zcfSeat, new)]
    (by simpa using hactive) (by simpa using hsafe)
  exact hset

theorem FacetSafe.effect (hzcf : ∀ i n p, Known (.zcf i n) p) (h : FacetSafe issuers Known s)
    (he : ZCF.Effect issuers.lib s t) : FacetSafe issuers Known t := by
  cases he with
  | emptySeat =>
    have hseat := h.withSeat (d := s.emptySeatData) (hzcf _ _ _) fun _ => offerSafe_empty rfl
    have hsend := hseat.send (.makeNoEscrowSeat s.emptySeatData) (fun _ h => by cases h)
      fun d hd => by
        cases hd
        exact ⟨rfl, _, _, rfl⟩
    exact ⟨hsend.handled, hsend.active, hsend.known, hsend.replaced, hsend.noEscrow⟩
  | exit hactive hhandle hmessage =>
    rcases hmessage with rfl | rfl
    · exact (h.eraseSeat _).send _ (fun _ h => by cases h) fun _ h => by cases h
    · exact (h.eraseSeat _).send _ (fun _ h => by cases h) fun _ h => by cases h
  | rearrange hnodup hprevious hconserved hsafe hmessage =>
    rename_i es previous message
    have hes := ZCF.has_of_forall₂ hprevious
    refine (h.setAllocations es hes fun e he p hp =>
      safeFor_of_seatIsOfferSafe hl (hsafe e he) hp).send _ ?_ fun _ h => by cases h
    rintro l hl' e' he'
    cases hl'
    obtain ⟨e, he, hhandle, heq⟩ := exists_of_forall₂ hmessage he'
    obtain ⟨p, hp⟩ := Option.isSome_iff_exists.mp (h.handled e.1 (hes e he)).2
    exact ⟨p, h.known e.1 e'.1 p hhandle hp, heq ▸ safeFor_of_seatIsOfferSafe hl (hsafe e he) hp⟩
  | mint hr hnew =>
    obtain ⟨hset, hknown⟩ := h.revalue hl hr fun _ _ => get_addToAllocation hnew
    refine (hset.send (.mintAndEscrow _ _) (fun _ h => by cases h)
      fun _ h => by cases h).send _ ?_ fun _ h => by cases h
    rintro l hl' e' he'
    cases hl'
    obtain rfl := List.mem_singleton.mp he'
    exact hknown
  | mintOnly => exact h.send _ (fun _ h => by cases h) fun _ h => by cases h
  | burn hr hnew =>
    obtain ⟨hset, hknown⟩ := h.revalue hl hr fun _ _ => get_subtractFromAllocation hnew
    refine (hset.send (.replaceAllocations _) ?_ fun _ h => by cases h).send
      (.withdrawAndBurn _ _) (fun _ h => by cases h) fun _ h => by cases h
    rintro l hl' e' he'
    cases hl'
    obtain rfl := List.mem_singleton.mp he'
    exact hknown
  | shutdown hmessage =>
    have hdropped : FacetSafe issuers Known
        { s with activeZCFSeats := ∅, zcfSeatToSeatHandle := ∅, status := .exiting } :=
      ⟨fun _ h => (by cases h), fun _ _ _ h => (by cases h), fun _ _ _ h => (by cases h),
        h.replaced, h.noEscrow⟩
    rcases hmessage with rfl | rfl
    · exact hdropped.send _ (fun _ h => by cases h) fun _ h => by cases h
    · exact hdropped.send _ (fun _ h => by cases h) fun _ h => by cases h
  | stopAcceptingOffers => exact h.send _ (fun _ h => by cases h) fun _ h => by cases h

end Facet

end AgoricSdk.Zoe
