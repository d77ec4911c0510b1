import AgoricSdk.Zoe.FacetSafety

/-!
Offer safety in Zoe. What is given with a well-behaved issuer is escrowed in
full before there is a seat; from then on a turn of Zoe either leaves the
allocations alone or takes over safe ones from a facet.
-/

namespace AgoricSdk.Zoe

open ERTP StateProgram

variable {β κ : Type} [DecidableEq κ] {issuers : Issuers β κ}

/-! ## The service -/

/-- A handle that Zoe made belongs to a seat with the proposal. -/
def ZoeService.Known (zoe : ZoeService β κ) (h : SeatHandle) (p : ProposalRecord β κ) : Prop :=
  ∀ n, h = .zoe n →
    ∃ seat, zoe.seatHandleToZoeSeatAdmin.lookup h = some seat ∧ seat.proposal = p

/-- The current allocation, what is being withdrawn and what is paid out. -/
structure SeatSafe (issuers : Issuers β κ) (seat : ZoeSeatAdmin β κ) : Prop where
  currentAllocation : SafeFor issuers seat.proposal seat.currentAllocation
  withdrawn : ∀ a, seat.withdrawn = some a → SafeFor issuers seat.proposal a
  payouts : ∀ a, seat.payouts = some a → SafeFor issuers seat.proposal a

/-- What well-behaved issuers reported is what was to be deposited. -/
def Offer.Truthful (issuers : Issuers β κ) (o : Offer β κ) : Prop :=
  ∀ keyword reported amount, o.deposits.lookup keyword = some reported →
    o.proposal.give.get keyword = some amount → issuers.wellBehaved amount.brand = true →
    reported = amount

structure ServiceSafe (issuers : Issuers β κ) (zoe : ZoeService β κ) : Prop where
  seats : ∀ h seat, zoe.seatHandleToZoeSeatAdmin.lookup h = some seat → SeatSafe issuers seat
  numbered : ∀ n, zoe.seatHandleToZoeSeatAdmin.has (.zoe n) = true → n < zoe.nextSeatHandle
  noEscrow : ∀ i n seat, zoe.seatHandleToZoeSeatAdmin.lookup (.zcf i n) = some seat →
    seat.proposal.give = ∅
  offers : ∀ n o, zoe.offers.lookup n = some o → o.Truthful issuers
  sent : ∀ i d, (i, .handleOffer d) ∈ zoe.sent →
    zoe.Known d.seatHandle d.proposal ∧ SafeFor issuers d.proposal d.initialAllocation

/-- Every seat is kept with its proposal. -/
def Extends (zoe zoe' : ZoeService β κ) : Prop :=
  ∀ h seat, zoe.seatHandleToZoeSeatAdmin.lookup h = some seat →
    ∃ seat', zoe'.seatHandleToZoeSeatAdmin.lookup h = some seat' ∧ seat'.proposal = seat.proposal

/-- A turn of Zoe that keeps the invariant and the seats. -/
def ZoeTurn (issuers : Issuers β κ) (zoe zoe' : ZoeService β κ) : Prop :=
  ServiceSafe issuers zoe → ServiceSafe issuers zoe' ∧ Extends zoe zoe'

instance : IsPreorder (ZoeService β κ) (ZoeTurn issuers) where
  refl _ h := ⟨h, fun _ seat hseat => ⟨seat, hseat, rfl⟩⟩
  trans _ _ _ h h' hs := by
    obtain ⟨ht, hst⟩ := h hs
    obtain ⟨hu, htu⟩ := h' ht
    refine ⟨hu, fun handle seat hseat => ?_⟩
    obtain ⟨seat', hseat', hp⟩ := hst handle seat hseat
    obtain ⟨seat'', hseat'', hp'⟩ := htu handle seat' hseat'
    exact ⟨seat'', hseat'', hp'.trans hp⟩

/-- What the invariant speaks about. -/
@[reducible] def ZoeService.seatView (zoe : ZoeService β κ) :
    Table SeatHandle (ZoeSeatAdmin β κ) × Nat × Table Nat (Offer β κ) ×
      List (InstanceHandle × ZCFMessage β κ) :=
  (zoe.seatHandleToZoeSeatAdmin, zoe.nextSeatHandle, zoe.offers, zoe.sent)

namespace ServiceSafe

variable {zoe zoe' : ZoeService β κ}

omit [DecidableEq κ] in
theorem Known.mono {h : SeatHandle} {p : ProposalRecord β κ} (hext : Extends zoe zoe')
    (hk : zoe.Known h p) : zoe'.Known h p := by
  intro n hn
  obtain ⟨seat, hseat, hp⟩ := hk n hn
  obtain ⟨seat', hseat', hp'⟩ := hext h seat hseat
  exact ⟨seat', hseat', hp'.trans hp⟩

theorem turn_of_view (h : Unchanged ZoeService.seatView zoe zoe') : ZoeTurn issuers zoe zoe' := by
  obtain ⟨b, p, i, seats, n, offers, m, w, sent⟩ := zoe
  obtain ⟨b', p', i', seats', n', offers', m', w', sent'⟩ := zoe'
  simp only [Unchanged, ZoeService.seatView, Prod.mk.injEq] at h
  obtain ⟨rfl, rfl, rfl, rfl⟩ := h
  exact fun hs => ⟨⟨hs.seats, hs.numbered, hs.noEscrow, hs.offers, hs.sent⟩,
    fun _ seat hseat => ⟨seat, hseat, rfl⟩⟩

instance {α : Type} (m : ZoeM β κ α) [Moves (Unchanged ZoeService.seatView) m] :
    Moves (ZoeTurn issuers) m :=
  moves_mono m fun _ _ => turn_of_view

theorem writeSeat (hs : ServiceSafe issuers zoe) {h : SeatHandle} {seat : ZoeSeatAdmin β κ}
    (next : Nat) (hkeep : ∀ old, zoe.seatHandleToZoeSeatAdmin.lookup h = some old →
      seat.proposal = old.proposal)
    (hsafe : SeatSafe issuers seat) (hnumber : ∀ n, h = .zoe n → n < next)
    (hnext : zoe.nextSeatHandle ≤ next)
    (hnoEscrow : ∀ i n, h = .zcf i n → seat.proposal.give = ∅) :
    ServiceSafe issuers { zoe with
      nextSeatHandle := next
      seatHandleToZoeSeatAdmin := zoe.seatHandleToZoeSeatAdmin.insert h seat } ∧
    Extends zoe { zoe with
      nextSeatHandle := next
      seatHandleToZoeSeatAdmin := zoe.seatHandleToZoeSeatAdmin.insert h seat } := by
  have hlookup : ∀ h' st, (zoe.seatHandleToZoeSeatAdmin.insert h seat).lookup h' = some st →
      (h' = h ∧ st = seat) ∨ zoe.seatHandleToZoeSeatAdmin.lookup h' = some st := by
    intro h' st hst
    rw [Table.lookup_insert] at hst
    split at hst
    case isTrue heq =>
      cases hst
      exact .inl ⟨heq, rfl⟩
    case isFalse => exact .inr hst
  have hext : Extends zoe { zoe with
      nextSeatHandle := next
      seatHandleToZoeSeatAdmin := zoe.seatHandleToZoeSeatAdmin.insert h seat } := by
    intro h' st hst
    by_cases heq : h' = h
    · subst heq
      exact ⟨seat, by simp, hkeep st hst⟩
    · exact ⟨st, by simp [heq, hst], rfl⟩
  refine ⟨⟨fun h' st hst => ?_, fun n hn => ?_, fun i n st hst => ?_, hs.offers, fun i d hd => ?_⟩,
    hext⟩
  · rcases hlookup h' st hst with ⟨rfl, rfl⟩ | hst
    · exact hsafe
    · exact hs.seats h' st hst
  · rcases Table.has_insert_iff.mp hn with rfl | hn
    · exact hnumber n rfl
    · exact (hs.numbered n hn).trans_le hnext
  · rcases hlookup _ st hst with ⟨rfl, rfl⟩ | hst
    · exact hnoEscrow i n rfl
    · exact hs.noEscrow i n st hst
  · obtain ⟨hk, hd⟩ := hs.sent i d hd
    exact ⟨Known.mono hext hk, hd⟩

theorem setSeat {h : SeatHandle} {seat seat' : ZoeSeatAdmin β κ}
    (hseat : zoe.seatHandleToZoeSeatAdmin.lookup h = some seat)
    (hp : seat'.proposal = seat.proposal)
    (hsafe : SeatSafe issuers seat → SeatSafe issuers seat') :
    ZoeTurn issuers zoe
      { zoe with seatHandleToZoeSeatAdmin := zoe.seatHandleToZoeSeatAdmin.insert h seat' } := by
  intro hs
  refine hs.writeSeat zoe.nextSeatHandle (fun old hold => ?_)
    (hsafe (hs.seats _ seat hseat)) ?_ le_rfl ?_
  · obtain rfl := Option.some.inj (hseat.symm.trans hold)
    exact hp
  · rintro n rfl
    exact hs.numbered n (Table.has_of_lookup hseat)
  · rintro i n rfl
    rw [hp]
    exact hs.noEscrow i n seat hseat

omit [DecidableEq κ] in
theorem orThrow_spec {α : Type} {e : ZoeFault} {o : Option α} :
    Wp (ZoeM.orThrow e o) (fun a t => t = zoe ∧ o = some a) (fun _ t => t = zoe) zoe := by
  cases o with
  | none => exact rfl
  | some a => exact ⟨rfl, rfl⟩

section Reads

variable {R : ZoeService β κ → ZoeService β κ → Prop} [IsPreorder _ R]

instance {α : Type} (e : ZoeFault) (o : Option α) : Moves R (ZoeM.orThrow e o) := by
  cases o <;> unfold ZoeM.orThrow <;> infer_instance

instance (i : InstanceHandle) : Moves R (ZoeService.getInstanceAdmin i : ZoeM β κ InstanceAdmin) := by
  unfold ZoeService.getInstanceAdmin; infer_instance

instance (h : SeatHandle) (seat : ZoeSeatAdmin β κ) :
    Moves R (ZoeService.assertHasNotExited h seat) := by
  unfold ZoeService.assertHasNotExited; infer_instance

end Reads

instance (i : InstanceHandle) (state : InstanceAdmin) : Moves (ZoeTurn issuers)
    (ZoeService.setInstanceAdmin i state : ZoeM β κ Unit) := by
  unfold ZoeService.setInstanceAdmin; infer_instance

omit [DecidableEq κ] in
theorem getZoeSeatAdmin_spec (h : SeatHandle) :
    Wp (ZoeService.getZoeSeatAdmin h)
      (fun seat t => t = zoe ∧ zoe.seatHandleToZoeSeatAdmin.lookup h = some seat)
      (fun _ t => t = zoe) zoe := by
  simp only [ZoeService.getZoeSeatAdmin, wp_bind, wp_get]
  exact orThrow_spec

/-- Both exits of a turn. -/
def Turned (issuers : Issuers β κ) {α : Type} (m : ZoeM β κ α) (zoe : ZoeService β κ) : Prop :=
  Wp m (fun _ t => ZoeTurn issuers zoe t) (fun _ t => ZoeTurn issuers zoe t) zoe

theorem Turned.after {α : Type} {m : ZoeM β κ α} (h : ZoeTurn issuers zoe zoe')
    (hm : Turned issuers m zoe') :
    Wp m (fun _ t => ZoeTurn issuers zoe t) (fun _ t => ZoeTurn issuers zoe t) zoe' :=
  wp_mono hm (fun _ _ ht => trans_of _ h ht) fun _ _ ht => trans_of _ h ht

theorem turned_of_moves {α : Type} (m : ZoeM β κ α) [Moves (ZoeTurn issuers) m] :
    Turned issuers m zoe := wp_of_moves _ m zoe

theorem replaceAllocation_spec {h : SeatHandle} {a : Allocation β κ}
    (hsafe : ∀ seat, zoe.seatHandleToZoeSeatAdmin.lookup h = some seat →
      SafeFor issuers seat.proposal a) :
    Turned issuers (ZoeService.replaceAllocation h a) zoe := by
  simp only [Turned, ZoeService.replaceAllocation, wp_bind]
  refine wp_mono (getZoeSeatAdmin_spec h) ?_ ?_
  · rintro seat zoe ⟨rfl, hseat⟩
    refine wp_mono (wp_of_moves (Unchanged id) (ZoeService.assertHasNotExited h seat) zoe) ?_ ?_
    · rintro _ zoe rfl
      simp only [ZoeService.setZoeSeatAdmin, wp_modify]
      exact setSeat hseat rfl fun hold => ⟨hsafe seat hseat, hold.withdrawn, hold.payouts⟩
    · rintro _ zoe rfl
      exact refl_of _ _
  · rintro _ zoe rfl
    exact refl_of _ _

variable [DecidableEq β]

instance (h : SeatHandle) (a : Allocation β κ) :
    Moves (ZoeTurn issuers) (ZoeService.withdrawPayments h a) := by
  unfold ZoeService.withdrawPayments; infer_instance

instance (h : SeatHandle) : Moves (ZoeTurn issuers) (ZoeService.exit h : ZoeM β κ Unit) := by
  refine moves_of_wp fun zoe => ?_
  simp only [ZoeService.exit, wp_bind]
  refine wp_mono (getZoeSeatAdmin_spec h) ?_ ?_
  · rintro seat zoe ⟨rfl, hseat⟩
    refine wp_ite (fun _ => turned_of_moves _) fun _ => ?_
    simp only [wp_bind]
    refine wp_mono (wp_of_moves (Unchanged id) (ZoeService.assertHasNotExited h seat) zoe) ?_ ?_
    · rintro _ zoe rfl
      simp only [ZoeService.setZoeSeatAdmin, wp_modify]
      refine Turned.after (setSeat hseat rfl fun hold => ?_)
        (turned_of_moves (ZoeService.withdrawPayments h seat.currentAllocation))
      refine ⟨hold.currentAllocation, fun a ha => ?_, hold.payouts⟩
      cases ha
      exact hold.currentAllocation
    · rintro _ zoe rfl
      exact refl_of _ _
  · rintro _ zoe rfl
    exact refl_of _ _

instance (i : InstanceHandle) :
    Moves (ZoeTurn issuers) (ZoeService.exitAllSeats i : ZoeM β κ Unit) := by
  unfold ZoeService.exitAllSeats; infer_instance

instance (i : InstanceHandle) :
    Moves (ZoeTurn issuers) (ZoeService.stopAcceptingOffers i : ZoeM β κ Unit) := by
  unfold ZoeService.stopAcceptingOffers; infer_instance

instance (i : InstanceHandle) (h : SeatHandle) :
    Moves (ZoeTurn issuers) (ZoeService.exitZoeSeatAdmin i h : ZoeM β κ Unit) := by
  unfold ZoeService.exitZoeSeatAdmin; infer_instance

instance (h : SeatHandle) : Moves (ZoeTurn issuers) (ZoeService.finalPayouts h : ZoeM β κ Unit) := by
  refine moves_of_wp fun zoe => ?_
  simp only [ZoeService.finalPayouts, wp_bind, wp_get]
  refine wp_mono (getZoeSeatAdmin_spec h) ?_ ?_
  · rintro seat zoe ⟨rfl, hseat⟩
    refine wp_ite (fun _ => ?_) fun _ =>
      turned_of_moves (ZoeService.exitZoeSeatAdmin seat.instanceHandle h)
    simp only [wp_bind, ZoeService.setZoeSeatAdmin, wp_modify]
    exact Turned.after
      (setSeat hseat rfl fun hold => ⟨hold.currentAllocation, hold.withdrawn, hold.withdrawn⟩)
      (turned_of_moves (ZoeService.exitZoeSeatAdmin seat.instanceHandle h))
  · rintro _ zoe rfl
    exact refl_of _ _

omit [DecidableEq κ] [DecidableEq β] in
theorem extends_trans {zoe'' : ZoeService β κ} (h : Extends zoe zoe') (h' : Extends zoe' zoe'') :
    Extends zoe zoe'' := by
  intro handle seat hseat
  obtain ⟨seat', hseat', hp⟩ := h handle seat hseat
  obtain ⟨seat'', hseat'', hp'⟩ := h' handle seat' hseat'
  exact ⟨seat'', hseat'', hp'.trans hp⟩

omit [DecidableEq κ] [DecidableEq β] in
theorem extends_refl : Extends zoe zoe := fun _ seat hseat => ⟨seat, hseat, rfl⟩

omit [DecidableEq β] in
/-- Whatever proposal is known for a handle, its seat is safe with it. -/
theorem safeFor_of_known (hs : ServiceSafe issuers zoe) {h : SeatHandle} {a : Allocation β κ}
    (hk : ∃ p, zoe.Known h p ∧ SafeFor issuers p a) (seat : ZoeSeatAdmin β κ)
    (hseat : zoe.seatHandleToZoeSeatAdmin.lookup h = some seat) :
    SafeFor issuers seat.proposal a := by
  obtain ⟨p, hp, hsafe⟩ := hk
  cases h with
  | zoe n =>
    obtain ⟨seat', hseat', rfl⟩ := hp n rfl
    obtain rfl := Option.some.inj (hseat.symm.trans hseat')
    exact hsafe
  | zcf i n => exact fun _ => offerSafe_empty (hs.noEscrow i n seat hseat)

omit [DecidableEq β] in
/-- The allocations arrive one seat after the other. -/
theorem replaceAllocations_spec {l : List (SeatHandle × Allocation β κ)}
    (hsafe : ∀ e ∈ l, ∃ p, zoe.Known e.1 p ∧ SafeFor issuers p e.2) :
    Turned issuers (ZoeService.replaceAllocations issuers l) zoe := by
  simp only [Turned, ZoeService.replaceAllocations]
  refine wp_ite (fun _ => refl_of (ZoeTurn issuers) zoe) fun _ => ?_
  by_cases hs : ServiceSafe issuers zoe
  case neg =>
    exact wp_mono (wp_of_moves (fun _ _ => True) _ zoe (h := ⟨fun _ => trivial⟩))
      (fun _ _ _ h => absurd h hs) fun _ _ _ h => absurd h hs
  refine wp_mono (wp_forM_const (I := fun t => ServiceSafe issuers t ∧ Extends zoe t) ?_
    ⟨hs, extends_refl⟩ (E := fun _ t => ServiceSafe issuers t ∧ Extends zoe t))
    (fun _ _ ht _ => ht) fun _ _ ht _ => ht
  rintro e he t ⟨ht, hext⟩
  obtain ⟨p, hp, hpsafe⟩ := hsafe e he
  refine wp_mono (replaceAllocation_spec
    (safeFor_of_known ht ⟨p, Known.mono hext hp, hpsafe⟩)) ?_ ?_
  · exact fun _ u hu => ⟨(hu ht).1, extends_trans hext (hu ht).2⟩
  · exact fun _ u hu => ⟨(hu ht).1, extends_trans hext (hu ht).2⟩

instance (i : InstanceHandle) (h : SeatHandle) :
    Moves (ZoeTurn issuers) (ZoeService.addZoeSeatAdmin i h : ZoeM β κ Unit) := by
  unfold ZoeService.addZoeSeatAdmin; infer_instance

omit [DecidableEq β] in
/-- A seat is registered under a new handle. -/
theorem initZoeSeatAdmin_spec {i : InstanceHandle} {d : SeatData β κ}
    (hsafe : SafeFor issuers d.proposal d.initialAllocation)
    (hnumber : ∀ n, d.seatHandle = .zoe n → n < zoe.nextSeatHandle)
    (hnoEscrow : ∀ i n, d.seatHandle = .zcf i n → d.proposal.give = ∅) :
    Wp (ZoeService.initZoeSeatAdmin i d)
      (fun _ t => ZoeTurn issuers zoe t ∧ t.Known d.seatHandle d.proposal)
      (fun _ t => ZoeTurn issuers zoe t) zoe := by
  simp only [ZoeService.initZoeSeatAdmin, wp_bind, wp_get]
  refine wp_ite (fun _ => refl_of (ZoeTurn issuers) zoe) fun hnew => ?_
  simp only [ZoeService.setZoeSeatAdmin, wp_modify]
  refine ⟨fun hs => hs.writeSeat zoe.nextSeatHandle (fun old hold => ?_)
    ⟨hsafe, fun _ h => (by cases h), fun _ h => by cases h⟩ hnumber le_rfl hnoEscrow,
    fun n _ => ⟨_, (Table.lookup_insert ..).trans (if_pos rfl), rfl⟩⟩
  exact absurd (Table.has_of_lookup hold) hnew

omit [DecidableEq β] in
theorem makeNoEscrowSeat_spec {i : InstanceHandle} {d : SeatData β κ}
    (hgive : d.proposal.give = ∅) (hhandle : ∃ i n, d.seatHandle = .zcf i n) :
    Turned issuers (ZoeService.makeNoEscrowSeat issuers i d) zoe := by
  simp only [Turned, ZoeService.makeNoEscrowSeat]
  refine wp_ite (fun _ => refl_of (ZoeTurn issuers) zoe) fun _ => ?_
  rw [wp_bind]
  refine wp_mono (wp_of_moves (ZoeTurn issuers)
    (ZoeService.addZoeSeatAdmin i d.seatHandle) zoe) ?_ fun _ _ ht => ht
  intro _ t ht
  obtain ⟨i', n, hn⟩ := hhandle
  refine wp_mono (initZoeSeatAdmin_spec (fun _ => offerSafe_empty hgive) ?_ fun _ _ _ => hgive)
    (fun _ u hu => trans_of _ ht hu.1) fun _ u hu => trans_of _ ht hu
  intro n' hn'
  rw [hn] at hn'
  cases hn'

instance (brand : β) (a : Amount β κ) :
    Moves (ZoeTurn issuers) (ZoeService.mintAndEscrow issuers brand a) := by
  unfold ZoeService.mintAndEscrow; infer_instance

instance (brand : β) (a : Amount β κ) :
    Moves (ZoeTurn issuers) (ZoeService.withdrawAndBurn issuers brand a) := by
  unfold ZoeService.withdrawAndBurn; infer_instance

theorem receive_spec {i : InstanceHandle} {message : ZoeMessage β κ}
    (hreplaced : ∀ l, message = .replaceAllocations l →
      ∀ e ∈ l, ∃ p, zoe.Known e.1 p ∧ SafeFor issuers p e.2)
    (hnoEscrow : ∀ d, message = .makeNoEscrowSeat d →
      d.proposal.give = ∅ ∧ ∃ i n, d.seatHandle = .zcf i n) :
    Turned issuers (ZoeService.receive issuers i message) zoe := by
  cases message with
  | makeNoEscrowSeat d =>
    obtain ⟨hgive, hhandle⟩ := hnoEscrow d rfl
    exact makeNoEscrowSeat_spec hgive hhandle
  | exitSeat h => exact turned_of_moves (ZoeService.exit h)
  | failSeat h => exact turned_of_moves (ZoeService.exit h)
  | exitAllSeats => exact turned_of_moves (ZoeService.exitAllSeats i)
  | failAllSeats => exact turned_of_moves (ZoeService.exitAllSeats i)
  | stopAcceptingOffers => exact turned_of_moves (ZoeService.stopAcceptingOffers i)
  | replaceAllocations l => exact replaceAllocations_spec (hreplaced l rfl)
  | mintAndEscrow brand a => exact turned_of_moves (ZoeService.mintAndEscrow issuers brand a)
  | withdrawAndBurn brand a => exact turned_of_moves (ZoeService.withdrawAndBurn issuers brand a)

/-! ## Offers -/

omit [DecidableEq β] in
/-- An offer of which every report is the truth may be stored. -/
theorem writeOffer (n : Nat) {o : Offer β κ} (ho : o.Truthful issuers) (next : Nat) :
    ZoeTurn issuers zoe { zoe with nextOffer := next, offers := zoe.offers.insert n o } := by
  refine fun hs => ⟨⟨hs.seats, hs.numbered, hs.noEscrow, fun m o' ho' => ?_, hs.sent⟩, extends_refl⟩
  rw [Table.lookup_insert] at ho'
  split at ho'
  case isTrue =>
    cases ho'
    exact ho
  case isFalse => exact hs.offers m o' ho'

instance (i : InstanceHandle) (p : ProposalRecord β κ) (payments : List Keyword) :
    Moves (ZoeTurn issuers) (ZoeService.depositPayments i p payments) := by
  refine moves_of_wp fun zoe => ?_
  simp only [ZoeService.depositPayments]
  refine wp_ite (fun _ => refl_of (ZoeTurn issuers) zoe) fun _ => ?_
  refine wp_ite (fun _ => refl_of (ZoeTurn issuers) zoe) fun _ => ?_
  simp only [wp_bind, wp_get, wp_modify]
  refine writeOffer _ (fun keyword reported amount h => ?_) _
  cases h

instance (i : InstanceHandle) (want give : Record Keyword (AmountPattern β κ))
    (payments : List Keyword) :
    Moves (ZoeTurn issuers) (ZoeService.offer issuers i want give payments) := by
  unfold ZoeService.offer; infer_instance

omit [DecidableEq β] in
/-- What is escrowed covers the give side. -/
theorem initialAllocation_safe {o : Offer β κ} {a : Allocation β κ} (ho : o.Truthful issuers)
    (h : ZoeService.initialAllocation issuers o = some a) : SafeFor issuers o.proposal a := by
  refine fun hgives => .inl fun keyword amount hgive => ?_
  simp only [ZoeService.initialAllocation, Option.bind_eq_bind, Option.bind_eq_some_iff,
    Option.pure_def, Option.some.injEq] at h
  obtain ⟨wants, -, deposits, hdeposits, rfl⟩ := h
  obtain ⟨reported, hreported, hget⟩ := Record.exists_of_mapM hdeposits hgive
  obtain rfl := ho keyword reported amount hreported hgive (hgives keyword amount hgive)
  exact ⟨reported, by simp [Record.get_spread, hget], rfl, le_rfl⟩

omit [DecidableEq β] in
theorem sendToZCF (hs : ServiceSafe issuers zoe) {i : InstanceHandle} {message : ZCFMessage β κ}
    (h : ∀ d, message = .handleOffer d →
      zoe.Known d.seatHandle d.proposal ∧ SafeFor issuers d.proposal d.initialAllocation) :
    ServiceSafe issuers { zoe with sent := zoe.sent ++ [(i, message)] } := by
  refine ⟨hs.seats, hs.numbered, hs.noEscrow, hs.offers, fun i' d hd => ?_⟩
  rcases List.mem_append.mp hd with hd | hd
  · exact hs.sent i' d hd
  · rw [List.mem_singleton, Prod.mk.injEq] at hd
    exact h d hd.2.symm

omit [DecidableEq β] in
theorem makeUserSeat_spec {i : InstanceHandle} {p : ProposalRecord β κ} {a : Allocation β κ}
    (hsafe : SafeFor issuers p a) : Turned issuers (ZoeService.makeUserSeat i p a) zoe := by
  simp only [Turned, ZoeService.makeUserSeat, wp_bind, wp_get, wp_modify]
  have hnext : ZoeTurn issuers zoe { zoe with nextSeatHandle := zoe.nextSeatHandle + 1 } :=
    fun hs => ⟨⟨hs.seats, fun n hn => (hs.numbered n hn).trans (Nat.lt_succ_self _), hs.noEscrow,
      hs.offers, hs.sent⟩, extends_refl⟩
  refine wp_mono (initZoeSeatAdmin_spec hsafe ?_ fun _ _ h => by cases h) ?_
    fun _ t ht => trans_of _ hnext ht
  · rintro n ⟨rfl⟩
    exact Nat.lt_succ_self _
  rintro _ t ⟨ht, hknown⟩
  refine wp_mono (wp_of_moves (ZoeTurn issuers) (ZoeService.addZoeSeatAdmin i _) t) ?_
    fun _ u hu => trans_of _ hnext (trans_of _ ht hu)
  intro _ u hu
  have hzu := trans_of (ZoeTurn issuers) hnext (trans_of _ ht hu)
  refine wp_mono (wp_of_moves (Unchanged id) (ZoeService.getInstanceAdmin i) u) ?_ ?_
  · rintro admin u rfl
    refine wp_ite (fun _ => hzu) fun _ => ?_
    intro hs
    obtain ⟨hu', hext⟩ := hzu hs
    refine ⟨hu'.sendToZCF fun d hd => ?_, hext⟩
    cases hd
    exact ⟨Known.mono (hu (ht (hnext hs).1).1).2 hknown, hsafe⟩
  · rintro _ u rfl
    exact hzu

omit [DecidableEq β] in
theorem depositsFulfilled_spec {o : Offer β κ} (ho : o.Truthful issuers) :
    Turned issuers (ZoeService.depositsFulfilled issuers o) zoe := by
  simp only [Turned, ZoeService.depositsFulfilled, wp_bind]
  refine wp_mono orThrow_spec ?_ ?_
  · rintro a zoe ⟨rfl, ha⟩
    exact makeUserSeat_spec (initialAllocation_safe ho ha)
  · rintro _ zoe rfl
    exact refl_of _ _

/-! ## Issuers -/

instance (i : InstanceHandle) (brand : β) (zoeMint : Bool) :
    Moves (ZoeTurn issuers) (ZoeService.sendIssuerRecord i brand zoeMint : ZoeM β κ Unit) := by
  refine moves_of_wp fun zoe => ?_
  simp only [ZoeService.sendIssuerRecord, wp_bind, wp_get]
  refine wp_mono orThrow_spec ?_ ?_
  · rintro _ zoe ⟨rfl, -⟩
    exact fun hs => ⟨hs.sendToZCF fun _ h => (by cases h), extends_refl⟩
  · rintro _ zoe rfl
    exact refl_of _ _

instance (brand : β) : Moves (ZoeTurn issuers) (ZoeService.storeIssuerRecord issuers brand) := by
  unfold ZoeService.storeIssuerRecord; infer_instance

instance (brand : β) : Moves (ZoeTurn issuers) (ZoeService.createPurse issuers brand) := by
  unfold ZoeService.createPurse; infer_instance

instance (i : InstanceHandle) (brand : β) :
    Moves (ZoeTurn issuers) (ZoeService.saveIssuer i brand : ZoeM β κ Unit) := by
  unfold ZoeService.saveIssuer; infer_instance

instance (i : InstanceHandle) (brand : β) :
    Moves (ZoeTurn issuers) (ZoeService.wrapIssuerKitWithZoeMint issuers i brand) := by
  unfold ZoeService.wrapIssuerKitWithZoeMint; infer_instance

end ServiceSafe

end AgoricSdk.Zoe
