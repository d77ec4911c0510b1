import AgoricSdk.Orchestration.ZoeTools
import AgoricSdk.Zoe.OfferSafety

/-!
Transfers between a seat and a local account are all-or-nothing where nothing hinders the
two stages that have no compensation: the payout of the temporary seat, and the
return of payments to the seat.
-/

namespace AgoricSdk.Orchestration

open ERTP Zoe StateProgram

variable {β κ σ : Type} [DecidableEq β]

section Statement

variable [DecidableEq κ]

/-- Nothing is lost in an operation of the account, and nothing made. -/
structure LocalAccount.Atomic (localAccount : LocalAccount β κ σ) : Prop where
  deposit : ∀ {s t amount}, localAccount.deposit s amount = some t → ∀ b c,
    localAccount.balance t b c = localAccount.balance s b c + worthOf b c amount
  withdraw : ∀ {s t amount}, localAccount.withdraw s amount = some t → ∀ b c,
    localAccount.balance t b c + worthOf b c amount = localAccount.balance s b c

namespace Transfer

/-- Whether the method is about to call `depositToSeat`. -/
def returnsPayments (t : Transfer β κ σ) : Bool :=
  t.phase = .undoDeposits || t.phase = .withdrawals && ¬ t.someRejected

/-- Neither the payouts nor a deposit to the seat is hindered by the step: no payout and no
deposit in escrow fails, and the seat takes the payments until they are reallocated. -/
def Unhindered (lib : StoreLib κ) (t : Transfer β κ σ) : TransferEvent β κ → Prop
  | .settle _ fulfilled => (t.phase = .payouts ∨ t.phase = .offer) → fulfilled = true
  | .refuseOffer => False
  | .resume => (t.returnsPayments = true → t.hasExited = false) ∧
      ∀ tempSeat, t.phase = .offerResult tempSeat →
        canTransfer lib t.zcf tempSeat t.seat t.amounts = true
  | _ => True

variable (localAccount : LocalAccount β κ σ) (t : Transfer β κ σ)

/-- The seat has its allocation, as others have changed it, with `gained` for `lost`. -/
def SeatHas (gained lost : AmountKeywordRecord β κ) : Prop := ∀ keyword b c,
  (worthAt keyword b c t.allocation : Int) + worthAt keyword b c lost =
    worthAt keyword b c t.allocationBefore + t.reallocated keyword b c +
      worthAt keyword b c gained

def AccountHas (gained lost : AmountKeywordRecord β κ) : Prop := ∀ b c,
  localAccount.balance t.account b c + sumOf b c lost.values =
    localAccount.balance t.accountBefore b c + sumOf b c gained.values

/-- Exactly the amounts were moved. -/
def Moved : Prop :=
  match t.method with
  | .localTransfer => t.SeatHas ∅ t.amounts ∧ t.AccountHas localAccount t.amounts ∅
  | .withdrawToSeat => t.SeatHas t.amounts ∅ ∧ t.AccountHas localAccount ∅ t.amounts

structure AllOrNothing : Prop where
  fulfilled : t.phase = .fulfilled → t.Moved localAccount
  rejected : t.phase = .rejected → t.SeatHas ∅ ∅ ∧ t.AccountHas localAccount ∅ ∅
  /-- No payment is left in neither of them. -/
  held : t.phase = .fulfilled ∨ t.phase = .rejected → ∀ leg ∈ t.legs, leg.place ≠ .neither

end Transfer

end Statement

/-! ## Transfers between two seats -/

section Seats

variable {lib : StoreLib κ} {s : ZCF β κ} {amounts : AmountKeywordRecord β κ}
  {fromSeat toSeat : ZCFSeat}

theorem next_of_effect {t : ZCF β κ} (h : ZCF.Effect lib s t) :
    s.nextZCFSeat ≤ t.nextZCFSeat := by
  cases h with
  | emptySeat => exact Nat.le_succ _
  | _ => exact Nat.le_refl _

theorem next_of_effects {t : ZCF β κ} (h : ZCF.Effects lib s t) :
    s.nextZCFSeat ≤ t.nextZCFSeat := by
  induction h with
  | refl => exact Nat.le_refl _
  | tail _ hstep ih => exact ih.trans (next_of_effect hstep)

omit [DecidableEq β] in
theorem handled_withSeat (hs : s.Handled) (seatData : SeatData β κ) :
    (s.withSeat seatData).Handled := by
  intro zcfSeat hactive
  rcases Table.has_insert_iff.mp hactive with heq | hold
  · exact ⟨Table.has_insert_iff.mpr (.inl heq), Table.has_insert_iff.mpr (.inl heq)⟩
  · exact ⟨Table.has_insert_iff.mpr (.inr (hs _ hold).1),
      Table.has_insert_iff.mpr (.inr (hs _ hold).2)⟩

theorem receive_spec (hs : s.Handled) (message : ZCFMessage β κ) :
    Wp (ZCF.receive lib message)
      (fun _ t => t.Handled ∧ s.nextZCFSeat ≤ t.nextZCFSeat)
      (fun _ t => t.Handled ∧ s.nextZCFSeat ≤ t.nextZCFSeat) s := by
  cases message with
  | handleOffer seatData =>
    simp only [ZCF.receive, ZCF.handleOffer, ZCF.makeZCFSeat]
    apply wp_ite
    · intro _
      exact ⟨hs, Nat.le_refl _⟩
    · intro _
      exact ⟨handled_withSeat hs seatData, Nat.le_succ _⟩
  | recordIssuer brand assetKind zoeMint => exact ⟨hs, Nat.le_refl _⟩

theorem checkRearrange_entries (transfers : List (TransferPart β κ)) :
    Wp (ZCF.checkRearrange lib transfers)
      (fun es _ => ∃ r, makeAllocationMap lib s.activeZCFSeats.lookup transfers = some r ∧
        es = r.entries)
      (fun _ _ => True) s := by
  simp only [ZCF.checkRearrange, wp_bind, wp_get]
  refine wp_mono ZCF.orThrow_spec ?_ fun _ _ _ => trivial
  rintro newAllocations u ⟨rfl, hmap⟩
  -- the checks that follow have no say in what is replaced
  iterate 4
    refine wp_of_forall (fun _ _ => ?_) fun _ _ => trivial
  exact ⟨newAllocations, hmap, rfl⟩

theorem makeAllocationMap_part {current : ZCFSeat → Option (Allocation β κ)}
    {r : Record ZCFSeat (Allocation β κ)} (hne : fromSeat ≠ toSeat)
    (h : makeAllocationMap lib current [transferPart fromSeat toSeat amounts] = some r) :
    (∃ a a', current fromSeat = some a ∧ subtractFromAllocation lib a amounts = some a' ∧
      r.get fromSeat = some a') ∧
    ∃ a a', current toSeat = some a ∧ addToAllocation lib a amounts = some a' ∧
      r.get toSeat = some a' := by
  simp only [makeAllocationMap, List.foldlM_cons, List.foldlM_nil, noteTransfer, transferPart,
    Option.bind_eq_bind, Option.bind_some, Option.pure_def] at h
  have hfrom : (((∅ : Transactions β κ).decrementAllocation fromSeat amounts).incrementAllocation
      toSeat amounts).get fromSeat = some ([], [amounts]) := by
    simp [Transactions.incrementAllocation, Transactions.decrementAllocation,
      Transactions.getAllocations, Record.get_spread, Record.get_singleton, hne, hne.symm]
  have hto : (((∅ : Transactions β κ).decrementAllocation fromSeat amounts).incrementAllocation
      toSeat amounts).get toSeat = some ([amounts], []) := by
    simp [Transactions.incrementAllocation, Transactions.decrementAllocation,
      Transactions.getAllocations, Record.get_spread, Record.get_singleton, hne]
  constructor
  · obtain ⟨a', ha', hget⟩ := Record.exists_of_mapM h hfrom
    obtain ⟨a, ha, hresult⟩ := Option.bind_eq_some_iff.mp ha'
    simp only [resultingAllocation, List.foldlM_cons, List.foldlM_nil, Option.bind_eq_bind,
      Option.pure_def, Option.bind_fun_some] at hresult
    exact ⟨a, a', ha, hresult, hget⟩
  · obtain ⟨a', ha', hget⟩ := Record.exists_of_mapM h hto
    obtain ⟨a, ha, hresult⟩ := Option.bind_eq_some_iff.mp ha'
    simp only [resultingAllocation, List.foldlM_cons, List.foldlM_nil, Option.bind_eq_bind,
      Option.pure_def, Option.bind_fun_some] at hresult
    exact ⟨a, a', ha, hresult, hget⟩

theorem atomicTransfer_spec (hs : s.Handled) (hne : fromSeat ≠ toSeat) :
    Wp (atomicTransfer lib fromSeat toSeat amounts)
      (fun _ t => t.Handled ∧ s.nextZCFSeat ≤ t.nextZCFSeat ∧
        (∃ a a', s.activeZCFSeats.lookup fromSeat = some a ∧
          subtractFromAllocation lib a amounts = some a' ∧
          t.activeZCFSeats.lookup fromSeat = some a') ∧
        ∃ a a', s.activeZCFSeats.lookup toSeat = some a ∧
          addToAllocation lib a amounts = some a' ∧ t.activeZCFSeats.lookup toSeat = some a')
      (fun _ t => t = s ∧ canTransfer lib s fromSeat toSeat amounts = false) s := by
  have hmoved : ZCF.Moved lib (ZCF.atomicRearrange lib [transferPart fromSeat toSeat amounts]) s :=
    ZCF.atomicRearrange_spec _
  have hlookups : Wp (atomicTransfer lib fromSeat toSeat amounts)
      (fun _ t => ∃ r, makeAllocationMap lib s.activeZCFSeats.lookup
          [transferPart fromSeat toSeat amounts] = some r ∧
        t.activeZCFSeats = ZCF.setAllocations s.activeZCFSeats r.entries)
      (fun _ t => t = s ∧ canTransfer lib s fromSeat toSeat amounts = false) s := by
    simp only [atomicTransfer, ZCF.atomicRearrange, List.all_cons, List.all_nil, Bool.and_true]
    apply wp_ite
    · intro hshape
      simp only [Bool.not_eq_true] at hshape
      refine ⟨rfl, ?_⟩
      rw [canTransfer, hshape, Bool.false_and]
    · intro _
      rw [wp_bind]
      cases hcheck : ZCF.checkRearrange lib [transferPart fromSeat toSeat amounts] s with
      | error e u =>
        obtain ⟨rfl, -⟩ := wp_of_error (ZCF.checkRearrange_spec _) hcheck
        rw [Wp, hcheck]
        refine ⟨rfl, ?_⟩
        rw [canTransfer, hcheck, Bool.and_false]
      | ok es u =>
        obtain ⟨rfl, -, hknown, -, -⟩ := wp_of_ok (ZCF.checkRearrange_spec _) hcheck
        obtain ⟨r, hr, rfl⟩ := wp_of_ok (checkRearrange_entries _) hcheck
        rw [wp_of_run hcheck, wp_bind]
        have hhandles : Wp (r.entries.mapM fun e => do return (← ZCF.getSeatHandle e.1, e.2))
            (fun _ t => t = u ∧ True) (fun _ t => t = u ∧ False) u := by
          refine wp_mono (wp_mapM_reads (R := fun _ _ => True) (E := fun _ => False) ?_)
            (fun _ _ h => ⟨h.1, trivial⟩) fun _ _ h => h
          intro e he
          simp only [wp_bind, wp_pure]
          refine wp_mono ZCF.getSeatHandle_spec (fun _ _ h => ⟨h.1, trivial⟩) ?_
          rintro _ t ⟨-, hnone⟩
          have hhas := (hknown e he).2
          simp [Table.has, hnone] at hhas
        refine wp_mono hhandles ?_ fun _ _ h => h.2.elim
        rintro message t ⟨rfl, -⟩
        refine wp_mono (ZCF.wp_orShutdown (Q := fun t => ∃ r', makeAllocationMap lib
          _ [transferPart fromSeat toSeat amounts] = some r' ∧ t.activeZCFSeats =
            ZCF.setAllocations _ r'.entries) ?_) (fun _ _ h => h) fun _ _ h => h.elim
        rw [wp_bind]
        refine wp_mono (ZCF.setAllocations_spec fun e he => (hknown e he).1) ?_ fun _ _ h => h
        rintro _ t rfl
        exact ⟨r, hr, rfl⟩
  refine wp_mono (wp_and hmoved hlookups) ?_ fun _ _ h => h.2
  rintro _ t ⟨heffects, r, hr, hactive⟩
  obtain ⟨⟨a, a', ha, hsub, hget⟩, b, b', hb, hadd, hget'⟩ := makeAllocationMap_part hne hr
  refine ⟨heffects.handled hs, next_of_effects heffects, ⟨a, a', ha, hsub, ?_⟩, b, b', hb, hadd, ?_⟩
  · rw [hactive]
    exact ZCF.lookup_setAllocations r.nodup (Record.get_eq_some_iff.mp hget)
  · rw [hactive]
    exact ZCF.lookup_setAllocations r.nodup (Record.get_eq_some_iff.mp hget')

theorem exit_active (lib : StoreLib κ) (hs : s.Handled) {zcfSeat : ZCFSeat}
    (hactive : s.activeZCFSeats.has zcfSeat = true) :
    Wp (ZCF.exit zcfSeat)
      (fun _ t => t.Handled ∧ s.nextZCFSeat ≤ t.nextZCFSeat ∧
        t.activeZCFSeats = s.activeZCFSeats.erase zcfSeat)
      (fun _ _ => False) s := by
  have hmoved : ZCF.Moved lib (ZCF.exit zcfSeat) s := ZCF.exit_spec hs zcfSeat
  obtain ⟨handle, hhandle⟩ := Option.isSome_iff_exists.mp (hs zcfSeat hactive).1
  have hexit : Wp (ZCF.exit zcfSeat)
      (fun _ t => t.activeZCFSeats = s.activeZCFSeats.erase zcfSeat) (fun _ _ => False) s := by
    simp only [ZCF.exit, ZCF.doExitSeat, ZCF.assertActive, ZCF.getSeatHandle, ZCF.deleteSeatHandle,
      ZcfM.send, wp_bind, wp_get]
    refine wp_ite (fun hnot => absurd hactive hnot) fun _ => ?_
    simp only [wp_pure, wp_modify, hhandle, ZcfM.orThrow]
  refine wp_mono (wp_and hmoved hexit) ?_ fun _ _ h => h.2
  rintro _ t ⟨heffects, herased⟩
  exact ⟨heffects.handled hs, next_of_effects heffects, herased⟩

theorem releaseFromSeat_spec (hs : s.Handled) (hne : fromSeat ≠ toSeat) :
    Wp (releaseFromSeat lib fromSeat toSeat amounts)
      (fun _ t => t.Handled ∧ s.nextZCFSeat ≤ t.nextZCFSeat ∧
        ∃ a a', s.activeZCFSeats.lookup fromSeat = some a ∧
          subtractFromAllocation lib a amounts = some a' ∧
          t.activeZCFSeats.lookup fromSeat = some a')
      (fun _ t => t = s) s := by
  unfold releaseFromSeat
  rw [wp_bind]
  refine wp_mono (atomicTransfer_spec hs hne) ?_ fun _ _ h => h.1
  rintro _ t ⟨ht, hnext, ⟨a, a', ha, hsub, ha'⟩, _, b', -, -, hb'⟩
  refine wp_mono (exit_active lib ht (Table.has_of_lookup hb')) ?_ fun _ _ h => h.elim
  rintro _ u ⟨hu, hnext', herased⟩
  refine ⟨hu, hnext.trans hnext', a, a', ha, hsub, ?_⟩
  rw [herased, Table.lookup_erase, if_neg hne, ha']

theorem reallocateAfterDeposit_spec (hs : s.Handled) (hne : fromSeat ≠ toSeat) :
    Wp (reallocateAfterDeposit lib toSeat fromSeat amounts)
      (fun _ t => t.Handled ∧ s.nextZCFSeat ≤ t.nextZCFSeat ∧
        ∃ a a', s.activeZCFSeats.lookup toSeat = some a ∧
          addToAllocation lib a amounts = some a' ∧
          t.activeZCFSeats.lookup toSeat = some a')
      (fun _ _ => canTransfer lib s fromSeat toSeat amounts = false) s := by
  unfold reallocateAfterDeposit
  rw [wp_bind]
  refine wp_mono (atomicTransfer_spec hs hne) ?_ fun _ _ h => h.2
  rintro _ t ⟨ht, hnext, ⟨_, a', -, -, ha'⟩, b, b', hb, hadd, hb'⟩
  refine wp_mono (exit_active lib ht (Table.has_of_lookup ha')) ?_ fun _ _ h => h.elim
  rintro _ u ⟨hu, hnext', herased⟩
  refine ⟨hu, hnext.trans hnext', b, b', hb, hadd, ?_⟩
  rw [herased, Table.lookup_erase, if_neg hne.symm, hb']

end Seats

/-! ## What allocations are worth -/

section Worth

variable [DecidableEq κ] {lib : StoreLib κ} {allocation record result : AmountKeywordRecord β κ}
  {keyword : Keyword} {b : β} {c : Option κ}

@[simp] theorem sumOf_empty : sumOf b c (∅ : AmountKeywordRecord β κ).values = 0 := rfl

@[simp] theorem worthAt_empty : worthAt keyword b c (∅ : AmountKeywordRecord β κ) = 0 := rfl

theorem worthAt_add (hl : lib.Lawful) (h : addToAllocation lib allocation record = some result) :
    worthAt keyword b c result = worthAt keyword b c allocation + worthAt keyword b c record := by
  unfold worthAt
  rcases Record.get_collect_eq h keyword with ⟨-, hop⟩ | ⟨hkey, hresult⟩
  · exact addOperation_worth hl hop
  · rw [mem_keys_spread, not_or, ← Record.get_eq_none_iff, ← Record.get_eq_none_iff] at hkey
    rw [hresult, hkey.1, hkey.2]
    rfl

theorem worthAt_subtract (hl : lib.Lawful)
    (h : subtractFromAllocation lib allocation record = some result) :
    worthAt keyword b c result + worthAt keyword b c record = worthAt keyword b c allocation := by
  unfold worthAt
  rcases Record.get_collect_eq h keyword with ⟨-, hop⟩ | ⟨hkey, hresult⟩
  · exact subtractOperation_worth hl hop
  · rw [mem_keys_spread, not_or, ← Record.get_eq_none_iff, ← Record.get_eq_none_iff] at hkey
    rw [hresult, hkey.1, hkey.2]
    rfl

end Worth

/-! ## Where the assets are -/

section Legs

/-- What a leg stands for. -/
def Leg.entry (leg : Leg β κ) : Keyword × Amount β κ := (leg.keyword, leg.amount)

/-- What the entries weigh together. -/
def weight (w : Keyword × Amount β κ → Nat) (entries : List (Keyword × Amount β κ)) : Nat :=
  (entries.map w).sum

/-- What the assets in one place weigh together. -/
def held (place : Place) (w : Keyword × Amount β κ → Nat) (legs : List (Leg β κ)) : Nat :=
  (legs.map fun leg => if leg.place = place then w leg.entry else 0).sum

variable {place : Place} {w : Keyword × Amount β κ → Nat} {legs : List (Leg β κ)}

omit [DecidableEq β] in
theorem held_all (h : ∀ leg ∈ legs, leg.place = place) :
    held place w legs = weight w (legs.map Leg.entry) := by
  unfold held weight
  rw [List.map_map]
  apply congrArg List.sum
  apply List.map_congr_left
  intro leg hleg
  exact if_pos (h leg hleg)

omit [DecidableEq β] in
theorem held_none (h : ∀ leg ∈ legs, leg.place ≠ place) : held place w legs = 0 := by
  unfold held
  apply List.sum_eq_zero
  intro n hn
  obtain ⟨leg, hleg, rfl⟩ := List.mem_map.mp hn
  exact if_neg (h leg hleg)

omit [DecidableEq β] in
theorem held_of_place {entries : List (Keyword × Amount β κ)} (other : Place)
    (h : ∀ leg ∈ legs, leg.place = place) (hentries : legs.map Leg.entry = entries) :
    held other w legs = if place = other then weight w entries else 0 := by
  split
  case isTrue heq =>
    subst heq
    rw [held_all h, hentries]
  case isFalse hne =>
    apply held_none
    intro leg hleg
    rw [h leg hleg]
    exact hne

omit [DecidableEq β] in
theorem held_map {f : Leg β κ → Leg β κ}
    (hf : ∀ leg, (f leg).place = leg.place ∧ (f leg).entry = leg.entry) :
    held place w (legs.map f) = held place w legs := by
  unfold held
  rw [List.map_map]
  apply congrArg List.sum
  apply List.map_congr_left
  intro leg _
  show (if (f leg).place = place then w (f leg).entry else 0) = _
  rw [(hf leg).1, (hf leg).2]

omit [DecidableEq β] in
theorem entries_map {f : Leg β κ → Leg β κ} (hf : ∀ leg, (f leg).entry = leg.entry)
    (legs : List (Leg β κ)) : (legs.map f).map Leg.entry = legs.map Leg.entry := by
  rw [List.map_map]
  apply List.map_congr_left
  exact fun leg _ => hf leg

omit [DecidableEq β] in
theorem held_set (place : Place) (w : Keyword × Amount β κ → Nat) {i : Nat} {leg : Leg β κ}
    (leg' : Leg β κ) (h : legs[i]? = some leg) (hentry : leg'.entry = leg.entry) :
    held place w (legs.set i leg') + (if leg.place = place then w leg.entry else 0) =
      held place w legs + (if leg'.place = place then w leg.entry else 0) := by
  induction legs generalizing i with
  | nil => cases h
  | cons head legs ih =>
    unfold held at *
    cases i with
    | zero =>
      cases h
      rw [List.set_cons_zero, List.map_cons, List.map_cons, List.sum_cons, List.sum_cons, hentry]
      omega
    | succ i =>
      have hrest := ih h
      rw [List.set_cons_succ, List.map_cons, List.map_cons, List.sum_cons, List.sum_cons]
      omega

variable [DecidableEq κ]

/-- The units of an asset under a keyword. -/
def atKeyword (keyword : Keyword) (b : β) (c : Option κ)
    (entry : Keyword × Amount β κ) : Nat :=
  if entry.1 = keyword then worthOf b c entry.2 else 0

theorem weight_atKeyword (amounts : AmountKeywordRecord β κ) (keyword : Keyword) (b : β)
    (c : Option κ) :
    weight (atKeyword keyword b c) amounts.entries = worthAt keyword b c amounts := by
  have hkeys : ∀ k ∈ amounts.keys, k ∈ insert keyword amounts.keys.toFinset := fun k hk =>
    Finset.mem_insert_of_mem (List.mem_toFinset.mpr hk)
  refine (amounts.sum_entries (fun k a => atKeyword keyword b c (k, a)) hkeys).trans ?_
  rw [Finset.sum_eq_single_of_mem keyword (Finset.mem_insert_self ..)]
  · unfold worthAt atKeyword
    simp
  · intro k _ hne
    cases amounts.get k with
    | none => rfl
    | some a => exact if_neg hne

theorem weight_worthOf (amounts : AmountKeywordRecord β κ) (b : β) (c : Option κ) :
    weight (fun entry => worthOf b c entry.2) amounts.entries = sumOf b c amounts.values := by
  unfold weight sumOf Record.values
  rw [List.map_map]
  rfl

end Legs

/-! ## What every step keeps -/

section Steps

variable [DecidableEq κ]

def Method.target : Method → Place
  | .localTransfer => .account
  | .withdrawToSeat => .seat

/-- Where the asset of a leg is in each phase, by how the last request about it stands. -/
def placeIn (method : Method) : Phase → Settlement → Place
  | .userSeat _, _ => .seat
  | .payouts, _ => .neither
  | .deposits, .fulfilled => .account
  | .deposits, _ => .neither
  | .undoDeposits, .pending => .account
  | .undoDeposits, _ => .neither
  | .withdrawals, .fulfilled => .neither
  | .withdrawals, _ => .account
  | .undoWithdrawals, .pending => .neither
  | .undoWithdrawals, _ => .account
  | .offer, _ => .neither
  | .offerResult _, _ => .neither
  | .fulfilled, _ => method.target
  | .rejected, _ => method.source

/-- Whether the method has the phase. -/
def Phase.Of (method : Method) : Phase → Prop
  | .userSeat _ | .payouts | .deposits | .undoDeposits => method = .localTransfer
  | .withdrawals | .undoWithdrawals => method = .withdrawToSeat
  | _ => True

/-- The books of the seat and of the account agree with where the assets are. -/
structure Kept (localAccount : LocalAccount β κ σ) (t : Transfer β κ σ) : Prop where
  handled : t.zcf.Handled
  seat_lt : t.seat < t.zcf.nextZCFSeat
  current : ∀ a, t.zcf.activeZCFSeats.lookup t.seat = some a → t.allocation = a
  entries : t.legs.map Leg.entry = t.amounts.entries
  places : ∀ leg ∈ t.legs, leg.place = placeIn t.method t.phase leg.settlement
  tempSeat : ∀ tempSeat, t.phase = .userSeat tempSeat ∨ t.phase = .offerResult tempSeat →
    tempSeat ≠ t.seat
  method : t.phase.Of t.method
  seatBooks : ∀ keyword b c, (worthAt keyword b c t.allocation : Int) +
      (if t.method.source = .seat then worthAt keyword b c t.amounts else 0) =
    worthAt keyword b c t.allocationBefore + t.reallocated keyword b c +
      held .seat (atKeyword keyword b c) t.legs
  accountBooks : ∀ b c, localAccount.balance t.account b c +
      (if t.method.source = .account then sumOf b c t.amounts.values else 0) =
    localAccount.balance t.accountBefore b c +
      held .account (fun entry => worthOf b c entry.2) t.legs

variable {localAccount : LocalAccount β κ σ} {t : Transfer β κ σ}

theorem Kept.settledAt (h : Kept localAccount t) {place : Place}
    (hplace : ∀ leg ∈ t.legs, leg.place = place) :
    (∀ keyword b c, (worthAt keyword b c t.allocation : Int) +
        (if t.method.source = .seat then worthAt keyword b c t.amounts else 0) =
      worthAt keyword b c t.allocationBefore + t.reallocated keyword b c +
        (if place = .seat then worthAt keyword b c t.amounts else 0)) ∧
    ∀ b c, localAccount.balance t.account b c +
        (if t.method.source = .account then sumOf b c t.amounts.values else 0) =
      localAccount.balance t.accountBefore b c +
        (if place = .account then sumOf b c t.amounts.values else 0) := by
  constructor
  · intro keyword b c
    rw [h.seatBooks keyword b c, held_of_place _ hplace h.entries, weight_atKeyword]
  · intro b c
    rw [h.accountBooks b c, held_of_place _ hplace h.entries, weight_worthOf]

theorem Kept.allOrNothing (h : Kept localAccount t) : t.AllOrNothing localAccount := by
  constructor
  · intro hphase
    have hplaces : ∀ leg ∈ t.legs, leg.place = t.method.target := by
      intro leg hleg
      rw [h.places leg hleg, hphase]
      rfl
    obtain ⟨hseat, haccount⟩ := h.settledAt hplaces
    unfold Transfer.Moved
    cases hmethod : t.method with
    | localTransfer =>
      constructor
      · intro keyword b c
        simpa [hmethod, Method.source, Method.target] using hseat keyword b c
      · intro b c
        simpa [hmethod, Method.source, Method.target] using haccount b c
    | withdrawToSeat =>
      constructor
      · intro keyword b c
        simpa [hmethod, Method.source, Method.target] using hseat keyword b c
      · intro b c
        simpa [hmethod, Method.source, Method.target] using haccount b c
  · intro hphase
    have hplaces : ∀ leg ∈ t.legs, leg.place = t.method.source := by
      intro leg hleg
      rw [h.places leg hleg, hphase]
      rfl
    obtain ⟨hseat, haccount⟩ := h.settledAt hplaces
    constructor
    · intro keyword b c
      have hbooks := hseat keyword b c
      simp only [worthAt_empty]
      omega
    · intro b c
      have hbooks := haccount b c
      omega
  · intro hphase leg hleg
    rw [h.places leg hleg]
    rcases hphase with hphase | hphase
    all_goals
      rw [hphase]
      cases t.method <;> exact nofun

theorem Kept.moveAll (h : Kept localAccount t) {zcf : ZCF β κ} {source place : Place}
    {phase : Phase} (hsource : ∀ leg ∈ t.legs, leg.place = source)
    (hhandled : zcf.Handled) (hnext : t.zcf.nextZCFSeat ≤ zcf.nextZCFSeat)
    (hworth : ∀ keyword b c, worthAt keyword b c (t.withZcf zcf).allocation +
        (if source = .seat then worthAt keyword b c t.amounts else 0) =
      worthAt keyword b c t.allocation +
        (if place = .seat then worthAt keyword b c t.amounts else 0))
    (haccount : source ≠ .account ∧ place ≠ .account)
    (hplace : placeIn t.method phase .pending = place) (hmethod : phase.Of t.method)
    (htemp : ∀ tempSeat, phase ≠ .userSeat tempSeat ∧ phase ≠ .offerResult tempSeat) :
    Kept localAccount ((t.withZcf zcf).moveAll place phase) := by
  let legs := t.legs.map fun leg => { leg with place, settlement := .pending }
  have hentries : legs.map Leg.entry = t.amounts.entries :=
    (entries_map (f := fun leg => { leg with place, settlement := .pending })
      (fun _ => rfl) t.legs).trans h.entries
  have hplaces : ∀ leg ∈ legs, leg.place = place := by
    intro leg hleg
    obtain ⟨old, -, rfl⟩ := List.mem_map.mp hleg
    rfl
  exact {
    handled := hhandled
    seat_lt := h.seat_lt.trans_le hnext
    current := fun a ha => by
      show (zcf.activeZCFSeats.lookup t.seat).getD _ = a
      rw [show zcf.activeZCFSeats.lookup t.seat = some a from ha]
      rfl
    entries := hentries
    places := fun leg hleg => by
      obtain ⟨old, -, rfl⟩ := List.mem_map.mp hleg
      exact hplace.symm
    tempSeat := fun tempSeat hphase => by
      rcases hphase with hphase | hphase
      · exact absurd hphase (htemp tempSeat).1
      · exact absurd hphase (htemp tempSeat).2
    method := hmethod
    seatBooks := fun keyword b c => by
      have hbooks := h.seatBooks keyword b c
      have hmoved := hworth keyword b c
      rw [held_of_place _ hsource h.entries, weight_atKeyword] at hbooks
      show (worthAt keyword b c (t.withZcf zcf).allocation : Int) + _ =
        worthAt keyword b c t.allocationBefore + t.reallocated keyword b c + held .seat _ legs
      rw [held_of_place _ hplaces hentries, weight_atKeyword]
      change _ + ((if t.method.source = .seat then worthAt keyword b c t.amounts else 0 : Nat) : Int)
        = _
      omega
    accountBooks := fun b c => by
      have hbooks := h.accountBooks b c
      rw [held_of_place _ hsource h.entries, if_neg haccount.1] at hbooks
      show localAccount.balance t.account b c + _ =
        localAccount.balance t.accountBefore b c + held .account _ legs
      rw [held_of_place _ hplaces hentries, if_neg haccount.2]
      exact hbooks }

theorem Kept.others (h : Kept localAccount t) {zcf : ZCF β κ} (hhandled : zcf.Handled)
    (hnext : t.zcf.nextZCFSeat ≤ zcf.nextZCFSeat) : Kept localAccount (t.others zcf) where
  handled := hhandled
  seat_lt := h.seat_lt.trans_le hnext
  current := fun a ha => by
    show (zcf.activeZCFSeats.lookup t.seat).getD _ = a
    rw [show zcf.activeZCFSeats.lookup t.seat = some a from ha]
    rfl
  entries := h.entries
  places := h.places
  tempSeat := h.tempSeat
  method := h.method
  seatBooks := fun keyword b c => by
    have hbooks := h.seatBooks keyword b c
    show (worthAt keyword b c (t.withZcf zcf).allocation : Int) + _ =
      worthAt keyword b c t.allocationBefore + (t.reallocated keyword b c +
        ((worthAt keyword b c (t.withZcf zcf).allocation : Int) -
          worthAt keyword b c t.allocation)) + held .seat _ t.legs
    change _ + ((if t.method.source = .seat then worthAt keyword b c t.amounts else 0 : Nat) : Int)
      = _
    omega
  accountBooks := h.accountBooks

theorem Kept.setLeg (h : Kept localAccount t) {i : Nat} {leg : Leg β κ} {account : σ}
    {place : Place} {settlement : Settlement} (hleg : t.legs[i]? = some leg)
    (hseat : leg.place ≠ .seat ∧ place ≠ .seat)
    (haccount : ∀ b c, localAccount.balance account b c +
        (if leg.place = .account then worthOf b c leg.amount else 0) =
      localAccount.balance t.account b c +
        (if place = .account then worthOf b c leg.amount else 0))
    (hplace : placeIn t.method t.phase settlement = place) :
    Kept localAccount { t.setLeg i { leg with place, settlement } with account } where
  handled := h.handled
  seat_lt := h.seat_lt
  current := h.current
  entries := by
    have hi : (t.legs.map Leg.entry)[i]? = some leg.entry := by
      rw [List.getElem?_map, hleg]
      rfl
    refine Eq.trans ?_ h.entries
    show (t.legs.set i _).map Leg.entry = _
    rw [List.map_set]
    obtain ⟨hlt, hget⟩ := List.getElem?_eq_some_iff.mp hi
    show (t.legs.map Leg.entry).set i leg.entry = _
    rw [← hget]
    exact List.set_getElem_self hlt
  places := fun leg' hleg' => by
    rcases List.mem_or_eq_of_mem_set hleg' with hold | rfl
    · exact h.places leg' hold
    · exact hplace.symm
  tempSeat := h.tempSeat
  method := h.method
  seatBooks := fun keyword b c => by
    have hset := held_set .seat (atKeyword keyword b c)
      { leg with place, settlement } hleg rfl
    rw [if_neg hseat.1, if_neg hseat.2] at hset
    have hbooks := h.seatBooks keyword b c
    rw [← Nat.add_zero (held _ _ t.legs), ← hset] at hbooks
    exact hbooks
  accountBooks := fun b c => by
    have hset := held_set .account (fun entry => worthOf b c entry.2)
      { leg with place, settlement } hleg rfl
    have hbooks := h.accountBooks b c
    have hmoved := haccount b c
    show localAccount.balance account b c + _ = localAccount.balance t.accountBefore b c +
      held .account _ (t.legs.set i _)
    change _ + (if t.method.source = .account then sumOf b c t.amounts.values else 0) = _
    change _ + (if leg.place = .account then worthOf b c leg.amount else 0) =
      _ + (if place = .account then worthOf b c leg.amount else 0) at hset
    omega

theorem Kept.remap (h : Kept localAccount t) {f : Leg β κ → Leg β κ} {phase : Phase}
    (hf : ∀ leg, (f leg).place = leg.place ∧ (f leg).entry = leg.entry)
    (hplaces : ∀ leg ∈ t.legs, leg.place = placeIn t.method phase (f leg).settlement)
    (hmethod : phase.Of t.method)
    (htemp : ∀ tempSeat, phase = .userSeat tempSeat ∨ phase = .offerResult tempSeat →
      tempSeat ≠ t.seat) :
    Kept localAccount { t with legs := t.legs.map f, phase } where
  handled := h.handled
  seat_lt := h.seat_lt
  current := h.current
  entries := (entries_map (fun leg => (hf leg).2) t.legs).trans h.entries
  places := fun leg' hleg' => by
    obtain ⟨leg, hleg, rfl⟩ := List.mem_map.mp hleg'
    exact (hf leg).1.trans (hplaces leg hleg)
  tempSeat := htemp
  method := hmethod
  seatBooks := fun keyword b c => by
    show _ = _ + ((held .seat _ (t.legs.map f) : Nat) : Int)
    rw [held_map hf]
    exact h.seatBooks keyword b c
  accountBooks := fun b c => by
    show _ = _ + held .account _ (t.legs.map f)
    rw [held_map hf]
    exact h.accountBooks b c

theorem Kept.settle (h : Kept localAccount t) (ha : localAccount.Atomic) {i : Nat}
    {fulfilled : Bool} (hok : (t.phase = .payouts ∨ t.phase = .offer) → fulfilled = true)
    {u : Transfer β κ σ} (hstep : t.settle localAccount i fulfilled = some u) :
    Kept localAccount u := by
  obtain ⟨leg, hleg, hstep⟩ := Option.bind_eq_some_iff.mp hstep
  split at hstep
  case isFalse => cases hstep
  case isTrue hpending =>
    have hplace := h.places leg (List.mem_of_getElem? hleg)
    rw [hpending] at hplace
    have hanswer {settlement : Settlement} (hseat : leg.place ≠ .seat)
        (hsame : placeIn t.method t.phase settlement = leg.place) :
        Kept localAccount (t.setLeg i { leg with settlement }) := by
      apply h.setLeg hleg
      · exact ⟨hseat, hseat⟩
      · exact fun _ _ => rfl
      · exact hsame
    have hdeposit {account : σ} (haccount : localAccount.deposit t.account leg.amount = some account)
        (hneither : leg.place = .neither)
        (hdone : placeIn t.method t.phase .fulfilled = .account) :
        Kept localAccount { t.setLeg i { leg with place := .account, settlement := .fulfilled } with
          account } := by
      apply h.setLeg hleg
      · rw [hneither]
        exact ⟨nofun, nofun⟩
      · intro b c
        rw [hneither]
        exact ha.deposit haccount b c
      · exact hdone
    have hwithdraw {account : σ}
        (haccount : localAccount.withdraw t.account leg.amount = some account)
        (hheld : leg.place = .account)
        (hdone : placeIn t.method t.phase .fulfilled = .neither) :
        Kept localAccount { t.setLeg i { leg with place := .neither, settlement := .fulfilled } with
          account } := by
      apply h.setLeg hleg
      · rw [hheld]
        exact ⟨nofun, nofun⟩
      · intro b c
        rw [hheld]
        exact ha.withdraw haccount b c
      · exact hdone
    split at hstep
    case h_1 hphase _ | h_2 hphase _ =>
      cases hstep
      rw [hphase] at hplace
      apply hanswer
      · rw [hplace]
        exact nofun
      · rw [hplace, hphase]
        rfl
    case h_3 hphase _ => cases hok (.inl hphase)
    case h_4 hphase _ => cases hok (.inr hphase)
    case h_5 hphase _ | h_6 hphase _ =>
      cases hstep
      rw [hphase] at hplace
      apply hanswer
      · rw [hplace]
        exact nofun
      · rw [hplace, hphase]
        rfl
    case h_7 hphase _ | h_8 hphase _ =>
      obtain ⟨account, haccount, hstep⟩ := Option.bind_eq_some_iff.mp hstep
      cases hstep
      rw [hphase] at hplace
      apply hdeposit haccount hplace
      rw [hphase]
      rfl
    case h_9 hphase _ | h_10 hphase _ =>
      obtain ⟨account, haccount, hstep⟩ := Option.bind_eq_some_iff.mp hstep
      cases hstep
      rw [hphase] at hplace
      apply hwithdraw haccount hplace
      rw [hphase]
      rfl
    case h_11 => cases hstep

omit [DecidableEq β] [DecidableEq κ] in
theorem settled_iff : t.settled = true ↔ ∀ leg ∈ t.legs, leg.settlement ≠ .pending := by
  simp [Transfer.settled]

omit [DecidableEq β] [DecidableEq κ] in
theorem someRejected_iff :
    t.someRejected = true ↔ ∃ leg ∈ t.legs, leg.settlement = .rejected := by
  simp [Transfer.someRejected]

theorem Kept.withZcf_self (h : Kept localAccount t) : t.withZcf t.zcf = t := by
  have hallocation : (t.zcf.activeZCFSeats.lookup t.seat).getD t.allocation = t.allocation := by
    cases hlookup : t.zcf.activeZCFSeats.lookup t.seat with
    | none => rfl
    | some a => exact (h.current a hlookup).symm
  unfold Transfer.withZcf
  rw [hallocation]

theorem Kept.moveNeither (h : Kept localAccount t) {phase : Phase}
    (hneither : ∀ leg ∈ t.legs, leg.place = .neither)
    (hplace : placeIn t.method phase .pending = .neither) (hmethod : phase.Of t.method)
    (htemp : ∀ tempSeat, phase ≠ .userSeat tempSeat ∧ phase ≠ .offerResult tempSeat) :
    Kept localAccount (t.moveAll .neither phase) := by
  have hmoved : Kept localAccount ((t.withZcf t.zcf).moveAll .neither phase) := by
    apply h.moveAll hneither h.handled le_rfl
    · intro keyword b c
      rw [h.withZcf_self]
    · exact ⟨nofun, nofun⟩
    · exact hplace
    · exact hmethod
    · exact htemp
  rw [h.withZcf_self] at hmoved
  exact hmoved

theorem Kept.depositToSeat (h : Kept localAccount t)
    (hneither : ∀ leg ∈ t.legs, leg.place = .neither) (hactive : t.hasExited = false) :
    Kept localAccount t.depositToSeat := by
  unfold Transfer.depositToSeat
  rw [if_neg (by simp [hactive])]
  apply h.moveNeither hneither
  · rfl
  · trivial
  · exact fun _ => ⟨nofun, nofun⟩

theorem Kept.setPhase (h : Kept localAccount t) {phase : Phase}
    (hplaces : ∀ leg ∈ t.legs, leg.place = placeIn t.method phase leg.settlement)
    (hmethod : phase.Of t.method)
    (htemp : ∀ tempSeat, phase = .userSeat tempSeat ∨ phase = .offerResult tempSeat →
      tempSeat ≠ t.seat) : Kept localAccount { t with phase } := by
  have hmapped : Kept localAccount { t with legs := t.legs.map id, phase } :=
    h.remap (fun _ => ⟨rfl, rfl⟩) hplaces hmethod htemp
  rw [List.map_id] at hmapped
  exact hmapped

theorem Kept.proceed (h : Kept localAccount t) (hsettled : t.settled = true)
    (hok : t.returnsPayments = true → t.hasExited = false) {u : Transfer β κ σ}
    (hstep : t.proceed = some u) : Kept localAccount u := by
  rw [settled_iff] at hsettled
  have hmethod := h.method
  unfold Transfer.proceed at hstep
  split at hstep
  case h_1 hphase =>
    cases hstep
    rw [hphase] at hmethod
    apply h.moveNeither
    · intro leg hleg
      rw [h.places leg hleg, hphase]
      rfl
    · rfl
    · exact hmethod
    · exact fun _ => ⟨nofun, nofun⟩
  case h_2 hphase =>
    rw [hphase] at hmethod
    split at hstep
    case isTrue =>
      cases hstep
      unfold Transfer.keepPayments Transfer.askAgain
      rw [List.map_map]
      apply h.remap
      · intro leg
        dsimp only [Function.comp]
        split <;> split <;> exact ⟨rfl, rfl⟩
      · intro leg hleg
        rw [h.places leg hleg, hphase]
        cases hsettlement : leg.settlement with
        | pending => exact absurd hsettlement (hsettled leg hleg)
        | fulfilled => simp [placeIn, hsettlement]
        | rejected => simp [placeIn, hsettlement]
      · exact hmethod
      · rintro tempSeat (hphase | hphase) <;> cases hphase
    case isFalse hnone =>
      cases hstep
      rw [someRejected_iff] at hnone
      apply h.setPhase
      · intro leg hleg
        rw [h.places leg hleg, hphase, hmethod]
        cases hsettlement : leg.settlement with
        | pending => exact absurd hsettlement (hsettled leg hleg)
        | fulfilled => rfl
        | rejected => exact absurd ⟨leg, hleg, hsettlement⟩ hnone
      · trivial
      · rintro tempSeat (hphase | hphase) <;> cases hphase
  case h_3 hphase =>
    cases hstep
    apply h.depositToSeat
    · intro leg hleg
      rw [h.places leg hleg, hphase]
      cases hsettlement : leg.settlement with
      | pending => exact absurd hsettlement (hsettled leg hleg)
      | fulfilled => rfl
      | rejected => rfl
    · apply hok
      simp [Transfer.returnsPayments, hphase]
  case h_4 hphase =>
    rw [hphase] at hmethod
    split at hstep
    case isTrue =>
      cases hstep
      apply h.remap
      · intro leg
        split <;> exact ⟨rfl, rfl⟩
      · intro leg hleg
        rw [h.places leg hleg, hphase]
        cases hsettlement : leg.settlement with
        | pending => exact absurd hsettlement (hsettled leg hleg)
        | fulfilled => rfl
        | rejected => simp [placeIn, hsettlement]
      · exact hmethod
      · rintro tempSeat (hphase | hphase) <;> cases hphase
    case isFalse hnone =>
      cases hstep
      apply h.depositToSeat
      · intro leg hleg
        rw [h.places leg hleg, hphase]
        cases hsettlement : leg.settlement with
        | pending => exact absurd hsettlement (hsettled leg hleg)
        | fulfilled => rfl
        | rejected => exact absurd (someRejected_iff.mpr ⟨leg, hleg, hsettlement⟩) hnone
      · apply hok
        simp [Transfer.returnsPayments, hphase, hnone]
  case h_5 hphase =>
    cases hstep
    rw [hphase] at hmethod
    apply h.setPhase
    · intro leg hleg
      rw [h.places leg hleg, hphase, hmethod]
      cases hsettlement : leg.settlement with
      | pending => exact absurd hsettlement (hsettled leg hleg)
      | fulfilled => rfl
      | rejected => rfl
    · trivial
    · rintro tempSeat (hphase | hphase) <;> cases hphase
  case h_6 => cases hstep

theorem Kept.withZcf (h : Kept localAccount t) {zcf : ZCF β κ} (hhandled : zcf.Handled)
    (hnext : t.zcf.nextZCFSeat ≤ zcf.nextZCFSeat)
    (hlookup : zcf.activeZCFSeats.lookup t.seat = t.zcf.activeZCFSeats.lookup t.seat) :
    Kept localAccount (t.withZcf zcf) := by
  have hallocation : (t.withZcf zcf).allocation = t.allocation := by
    show (zcf.activeZCFSeats.lookup t.seat).getD _ = _
    rw [hlookup]
    exact congrArg Transfer.allocation h.withZcf_self
  exact {
    handled := hhandled
    seat_lt := h.seat_lt.trans_le hnext
    current := fun a ha => hallocation.trans (h.current a (hlookup.symm.trans ha))
    entries := h.entries
    places := h.places
    tempSeat := h.tempSeat
    method := h.method
    seatBooks := fun keyword b c => by
      rw [hallocation]
      exact h.seatBooks keyword b c
    accountBooks := h.accountBooks }

theorem Kept.withSeat (h : Kept localAccount t) {zcf : ZCF β κ} {phase : Phase}
    (hhandled : zcf.Handled) (hnext : t.zcf.nextZCFSeat ≤ zcf.nextZCFSeat)
    {allocation : Allocation β κ}
    (hactive : zcf.activeZCFSeats = t.zcf.activeZCFSeats.insert t.zcf.nextZCFSeat allocation)
    (hphase : phase = .userSeat t.zcf.nextZCFSeat ∨ phase = .offerResult t.zcf.nextZCFSeat)
    (hplaces : ∀ leg ∈ t.legs, leg.place = placeIn t.method phase leg.settlement)
    (hmethod : phase.Of t.method) : Kept localAccount { t.withZcf zcf with phase } := by
  have hne : t.zcf.nextZCFSeat ≠ t.seat := Nat.ne_of_gt h.seat_lt
  have hlookup : zcf.activeZCFSeats.lookup t.seat = t.zcf.activeZCFSeats.lookup t.seat := by
    rw [hactive, Table.lookup_insert, if_neg hne.symm]
  apply (h.withZcf hhandled hnext hlookup).setPhase hplaces hmethod
  intro tempSeat htemp
  rcases hphase with rfl | rfl
  · rcases htemp with htemp | htemp
    · cases htemp
      exact hne
    · cases htemp
  · rcases htemp with htemp | htemp
    · cases htemp
    · cases htemp
      exact hne

theorem Kept.handleOffer (h : Kept localAccount t) (hphase : t.phase = .offer)
    (seatHandle : SeatHandle) : Kept localAccount (t.handleOffer seatHandle) := by
  apply h.withSeat (handled_withSeat h.handled _) (Nat.le_succ _) rfl (.inr rfl)
  · intro leg hleg
    rw [h.places leg hleg, hphase]
    rfl
  · trivial

theorem Kept.resume {lib : StoreLib κ} (h : Kept localAccount t) (hl : lib.Lawful)
    (hok : t.returnsPayments = true → t.hasExited = false)
    (htransfer : ∀ tempSeat, t.phase = .offerResult tempSeat →
      canTransfer lib t.zcf tempSeat t.seat t.amounts = true)
    {u : Transfer β κ σ} (hstep : t.resume lib = some u) : Kept localAccount u := by
  have hmethod := h.method
  unfold Transfer.resume at hstep
  split at hstep
  case h_1 tempSeat hphase =>
    rw [hphase] at hmethod
    have hspec : Wp (releaseFromSeat lib t.seat tempSeat t.amounts) _ _ t.zcf :=
      releaseFromSeat_spec h.handled (h.tempSeat tempSeat (.inl hphase)).symm
    have hseat : ∀ leg ∈ t.legs, leg.place = .seat := by
      intro leg hleg
      rw [h.places leg hleg, hphase]
      rfl
    split at hstep
    case h_1 zcf hrun =>
      cases hstep
      obtain ⟨hhandled, hnext, a, a', ha, hsub, ha'⟩ := wp_of_ok hspec hrun
      apply h.moveAll hseat hhandled hnext
      · intro keyword b c
        have hallocation : (t.withZcf zcf).allocation = a' := by
          show (zcf.activeZCFSeats.lookup t.seat).getD _ = a'
          rw [ha']
          rfl
        rw [hallocation, h.current a ha, if_pos rfl, if_neg nofun]
        exact worthAt_subtract hl hsub
      · exact ⟨nofun, nofun⟩
      · rfl
      · exact hmethod
      · exact fun _ => ⟨nofun, nofun⟩
    case h_2 zcf hrun =>
      cases hstep
      cases wp_of_error hspec hrun
      rw [h.withZcf_self]
      apply h.setPhase
      · intro leg hleg
        rw [hseat leg hleg, hmethod]
        rfl
      · trivial
      · rintro tempSeat (hphase | hphase) <;> cases hphase
  case h_2 tempSeat hphase =>
    have hspec : Wp (reallocateAfterDeposit lib t.seat tempSeat t.amounts) _ _ t.zcf :=
      reallocateAfterDeposit_spec h.handled (h.tempSeat tempSeat (.inr hphase))
    have hneither : ∀ leg ∈ t.legs, leg.place = .neither := by
      intro leg hleg
      rw [h.places leg hleg, hphase]
      rfl
    split at hstep
    case h_1 zcf hrun =>
      cases hstep
      obtain ⟨hhandled, hnext, a, a', ha, hadd, ha'⟩ := wp_of_ok hspec hrun
      apply h.moveAll hneither hhandled hnext
      · intro keyword b c
        have hallocation : (t.withZcf zcf).allocation = a' := by
          show (zcf.activeZCFSeats.lookup t.seat).getD _ = a'
          rw [ha']
          rfl
        rw [hallocation, h.current a ha, if_neg nofun, if_pos rfl]
        exact worthAt_add hl hadd
      · exact ⟨nofun, nofun⟩
      · unfold Transfer.afterDeposit
        cases t.method <;> rfl
      · unfold Transfer.afterDeposit
        cases t.method <;> trivial
      · intro tempSeat
        unfold Transfer.afterDeposit
        cases t.method <;> exact ⟨nofun, nofun⟩
    case h_2 zcf hrun =>
      have hrefused := wp_of_error hspec hrun
      rw [htransfer tempSeat hphase] at hrefused
      cases hrefused
  case h_3 =>
    split at hstep
    case isTrue hsettled => exact h.proceed hsettled hok hstep
    case isFalse => cases hstep

theorem Kept.step {lib : StoreLib κ} (h : Kept localAccount t) (hl : lib.Lawful)
    (ha : localAccount.Atomic) {event : TransferEvent β κ} (hok : t.Unhindered lib event)
    {u : Transfer β κ σ} (hstep : t.step lib localAccount event = some u) :
    Kept localAccount u := by
  cases event with
  | call call =>
    cases hstep
    have hspec : ZCF.Moved lib (call.run lib) t.zcf := ZCF.call_spec h.handled call
    have heffects : ZCF.Effects lib t.zcf (finalState (call.run lib) t.zcf) := finalState_of_wp hspec
    exact h.others (heffects.handled h.handled) (next_of_effects heffects)
  | receive message =>
    cases hstep
    have hspec : Wp (ZCF.receive lib message) _ _ t.zcf := receive_spec h.handled message
    obtain ⟨hhandled, hnext⟩ := finalState_of_wp hspec
    exact h.others hhandled hnext
  | settle i fulfilled => exact h.settle ha hok hstep
  | refuseOffer => exact hok.elim
  | handleOffer seatHandle =>
    simp only [Transfer.step] at hstep
    split at hstep
    case isTrue hoffer =>
      cases hstep
      exact h.handleOffer hoffer.1 seatHandle
    case isFalse => cases hstep
  | resume => exact h.resume hl hok.1 hok.2 hstep

end Steps

section Runs

variable [DecidableEq κ] {lib : StoreLib κ} {localAccount : LocalAccount β κ σ}

theorem kept_start (method : Method) {seat : ZCFSeat} (amounts : AmountKeywordRecord β κ)
    {zcf : ZCF β κ} (account : σ) (payout : Allocation β κ) (hhandled : zcf.Handled)
    (hseat : seat < zcf.nextZCFSeat) :
    Kept localAccount (.start method seat amounts zcf account payout) := by
  let legs : List (Leg β κ) := amounts.entries.map fun e =>
    { keyword := e.1, amount := e.2, place := method.source, settlement := .pending }
  let t : Transfer β κ σ :=
    { method, seat, amounts, zcf, account
      allocation := (zcf.activeZCFSeats.lookup seat).getD payout
      legs
      phase := .rejected
      accountBefore := account
      allocationBefore := (zcf.activeZCFSeats.lookup seat).getD payout
      reallocated := fun _ _ _ => 0 }
  have hleg : ∀ leg ∈ legs, leg.place = method.source ∧ leg.settlement = .pending := by
    intro leg hleg
    obtain ⟨e, -, rfl⟩ := List.mem_map.mp hleg
    exact ⟨rfl, rfl⟩
  have hentries : legs.map Leg.entry = amounts.entries := by
    show (amounts.entries.map _).map _ = _
    rw [List.map_map]
    exact List.map_id _
  have hkept : Kept localAccount t := {
    handled := hhandled
    seat_lt := hseat
    current := fun a ha => by
      show (zcf.activeZCFSeats.lookup seat).getD payout = a
      rw [show zcf.activeZCFSeats.lookup seat = some a from ha]
      rfl
    entries := hentries
    places := fun leg h => (hleg leg h).1
    tempSeat := fun tempSeat h => by
      rcases h with h | h <;> cases h
    method := trivial
    seatBooks := fun keyword b c => by
      rw [held_of_place _ (fun leg h => (hleg leg h).1) hentries, weight_atKeyword]
      show _ = (worthAt keyword b c t.allocation : Int) + 0 + _
      rw [Int.add_zero]
    accountBooks := fun b c => by
      rw [held_of_place _ (fun leg h => (hleg leg h).1) hentries, weight_worthOf] }
  by_cases hexited : t.hasExited = true
  · unfold Transfer.start
    rw [if_pos hexited]
    exact hkept
  · unfold Transfer.start
    rw [if_neg hexited]
    cases method with
    | localTransfer =>
      refine hkept.withSeat ?_ (Nat.le_succ _) rfl (.inl rfl) ?_ ?_
      · exact handled_withSeat hhandled zcf.emptySeatData
      · exact fun leg h => (hleg leg h).1
      · rfl
    | withdrawToSeat =>
      apply hkept.setPhase
      · intro leg h
        rw [(hleg leg h).1, (hleg leg h).2]
        rfl
      · rfl
      · rintro tempSeat (h | h) <;> cases h

theorem all_or_nothing (hl : lib.Lawful) (ha : localAccount.Atomic) {t : Transfer β κ σ}
    (h : (transferSystem lib localAccount).Reachable (Transfer.Unhindered lib) t) :
    t.AllOrNothing localAccount := by
  have hkept : Kept localAccount t := by
    apply h.invariant
    · rintro t ⟨method, seat, amounts, zcf, account, payout, hhandled, hseat, rfl⟩
      exact kept_start method amounts account payout hhandled hseat
    · intro t event u hkept hok hstep
      exact hkept.step hl ha hok hstep
  exact hkept.allOrNothing

end Runs

/-! ## Transfers of fungible assets -/

/-- An account of a bank, by what it holds of each asset. -/
def bankAccount : LocalAccount Nat Nat (Nat → Option Nat → Nat) where
  deposit balance amount := some fun b c => balance b c + worthOf b c amount
  withdraw balance amount :=
    match amount.value with
    | .bigint n =>
      if n.toNat ≤ balance amount.brand none then
        some fun b c => balance b c - worthOf b c amount
      else none
    | _ => none
  balance := id

theorem bankAccount_atomic : bankAccount.Atomic where
  deposit := fun h b c => by
    cases h
    rfl
  withdraw := fun {s t amount} h b c => by
    obtain ⟨brand, value⟩ := amount
    cases value with
    | bigint n =>
      simp only [bankAccount] at h
      split at h
      case isTrue hle =>
        cases h
        have hworth : worthOf b c (⟨brand, .bigint n⟩ : Amount Nat Nat) ≤ s b c := by
          unfold worthOf
          split
          case isTrue hb =>
            subst hb
            cases c with
            | none => exact hle
            | some k => exact Nat.zero_le _
          case isFalse => exact Nat.zero_le _
        exact Nat.sub_add_cancel hworth
      case isFalse => cases h
    | _ => cases h

/-- A facet with one seat, which has 5 of brand 1. -/
def oneSeat : ZCF Nat Nat :=
  ({ instanceHandle := 0
     activeZCFSeats := ∅
     zcfSeatToSeatHandle := ∅
     proposals := ∅
     brandToIssuerRecord := ∅
     zcfMints := []
     nextZCFSeat := 0
     nextSeatHandle := 0
     status := .running
     sent := [] } : ZCF Nat Nat).withSeat
    { proposal := { give := ∅, want := ∅ }
      initialAllocation := Record.singleton "In" (units 1 5)
      seatHandle := .zoe 0 }

theorem oneSeat_handled : oneSeat.Handled := by
  apply handled_withSeat
  intro zcfSeat h
  cases h

/-- The method is called for 5 of brand 1, where the account holds 7. -/
def called (method : Method) : Transfer Nat Nat (Nat → Option Nat → Nat) :=
  .start method 0 (Record.singleton "In" (units 1 5)) oneSeat
    (fun b c => if b = 1 ∧ c = none then 7 else 0) ∅

instance (t : Transfer Nat Nat (Nat → Option Nat → Nat)) (event : TransferEvent Nat Nat) :
    Decidable (t.Unhindered numberStore event) := by
  cases event with
  | settle => exact inferInstanceAs (Decidable (_ → _))
  | refuseOffer => exact .isFalse id
  | resume =>
    cases hphase : t.phase with
    | offerResult tempSeat =>
      refine decidable_of_iff ((t.returnsPayments = true → t.hasExited = false) ∧
        canTransfer numberStore t.zcf tempSeat t.seat t.amounts = true) ?_
      simp [Transfer.Unhindered, hphase]
    | _ =>
      refine decidable_of_iff (t.returnsPayments = true → t.hasExited = false) ?_
      simp [Transfer.Unhindered, hphase]
  | _ => exact .isTrue trivial

/-- The account takes no deposit, and the payment is returned to the seat. -/
def returned : List (TransferEvent Nat Nat) :=
  [.resume, .settle 0 true, .resume, .settle 0 false, .resume, .resume, .settle 0 true,
    .handleOffer (.zoe 1), .resume]

theorem all_or_nothing_returned : ∃ t, (transferSystem numberStore bankAccount).runWhile
      (Transfer.Unhindered numberStore) (called .localTransfer) returned = some t ∧
    t.phase = .rejected ∧ t.AllOrNothing bankAccount := by
  have hphase : (((transferSystem numberStore bankAccount).runWhile
      (Transfer.Unhindered numberStore) (called .localTransfer) returned).map fun t => t.phase) =
      some .rejected := by decide +kernel
  obtain ⟨t, hrun, hphase⟩ := Option.map_eq_some_iff.mp hphase
  have hstart : (transferSystem numberStore bankAccount).Reachable
      (Transfer.Unhindered numberStore) (called .localTransfer) :=
    .init ⟨_, _, _, _, _, _, oneSeat_handled, by decide, rfl⟩
  exact ⟨t, hrun, hphase,
    all_or_nothing numberStore_lawful bankAccount_atomic (hstart.of_runWhile hrun)⟩

/-- The seat exits while the account is asked for the payment. -/
def exited : List (TransferEvent Nat Nat) := [.settle 0 true, .call (.exit 0), .resume]

theorem payment_left : ¬ ∀ t : Transfer Nat Nat (Nat → Option Nat → Nat),
    (transferSystem numberStore bankAccount).Reachable TransitionSystem.anyStep t →
    t.AllOrNothing bankAccount := by
  intro h
  have hstate : (((transferSystem numberStore bankAccount).runWhile
      TransitionSystem.anyStep (called .withdrawToSeat) exited).map fun t =>
        (t.phase, t.legs.map Leg.place)) = some (.rejected, [.neither]) := by decide +kernel
  obtain ⟨t, hrun, hstate⟩ := Option.map_eq_some_iff.mp hstate
  have hstart : (transferSystem numberStore bankAccount).Reachable
      TransitionSystem.anyStep (called .withdrawToSeat) :=
    .init ⟨_, _, _, _, _, _, oneSeat_handled, by decide, rfl⟩
  have hheld := (h t (hstart.of_runWhile hrun)).held
  rw [Prod.mk.injEq] at hstate
  obtain ⟨leg, hleg, hplace⟩ : ∃ leg ∈ t.legs, leg.place = .neither := by
    have hmem : Place.neither ∈ t.legs.map Leg.place := by
      rw [hstate.2]
      exact List.mem_singleton_self _
    exact List.mem_map.mp hmem
  exact hheld (.inr hstate.1) leg hleg hplace

end AgoricSdk.Orchestration
