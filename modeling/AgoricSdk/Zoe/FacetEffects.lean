import AgoricSdk.Zoe.System

/-!
What a call of a contract facet can do. Whatever a contract calls, and however
the call ends, the facet makes a few of the moves listed in `Effect`, each of
which comes with the checks that were made before it.
-/

namespace AgoricSdk.Zoe

open ERTP StateProgram

variable {β κ : Type} [DecidableEq β]

namespace ZCF

/-- Every active seat is known by its handle and has a proposal. -/
def Handled (s : ZCF β κ) : Prop :=
  ∀ zcfSeat, s.activeZCFSeats.has zcfSeat = true →
    s.zcfSeatToSeatHandle.has zcfSeat = true ∧ s.proposals.has zcfSeat = true

/-- A new seat. -/
def withSeat (s : ZCF β κ) (seatData : SeatData β κ) : ZCF β κ :=
  { s with
    nextZCFSeat := s.nextZCFSeat + 1
    proposals := s.proposals.insert s.nextZCFSeat seatData.proposal
    activeZCFSeats := s.activeZCFSeats.insert s.nextZCFSeat seatData.initialAllocation
    zcfSeatToSeatHandle := s.zcfSeatToSeatHandle.insert s.nextZCFSeat seatData.seatHandle }

/-- The data of the next seat that is made without an offer. -/
def emptySeatData (s : ZCF β κ) : SeatData β κ where
  proposal := { give := ∅, want := ∅ }
  initialAllocation := ∅
  seatHandle := .zcf s.instanceHandle s.nextSeatHandle

/-- The seats with some allocations replaced. -/
def setAllocations (active : Table ZCFSeat (Allocation β κ))
    (newAllocations : List (ZCFSeat × Allocation β κ)) : Table ZCFSeat (Allocation β κ) :=
  newAllocations.foldl (fun active e => active.insert e.1 e.2) active

/-- The move of assets between a mint and a seat that was checked. -/
structure Revalued (lib : StoreLib κ) (s : ZCF β κ) (brand : β) (zcfSeat : ZCFSeat)
    (handle : SeatHandle) (current new : Allocation β κ) (record : AmountKeywordRecord β κ)
    (total : Amount β κ) : Prop where
  active : s.activeZCFSeats.lookup zcfSeat = some current
  handle : s.zcfSeatToSeatHandle.lookup zcfSeat = some handle
  shape : amountKeywordRecordShape lib new = true
  offerSafe : seatIsOfferSafe lib s zcfSeat (current.spread new) = some true
  coerced : ∃ record', coerceAmountKeywordRecord lib s.brandToIssuerRecord.lookup record' =
    some record
  sum : ∃ assetKind, s.brandToIssuerRecord.lookup brand = some assetKind ∧
    sumAmountKeywordRecord lib record brand assetKind = some total

/-- One move of the facet. -/
inductive Effect (lib : StoreLib κ) (s : ZCF β κ) : ZCF β κ → Prop where
  | emptySeat : Effect lib s { s.withSeat s.emptySeatData with
      nextSeatHandle := s.nextSeatHandle + 1
      sent := s.sent ++ [.makeNoEscrowSeat s.emptySeatData] }
  | exit {zcfSeat : ZCFSeat} {handle : SeatHandle} {message : ZoeMessage β κ} :
      s.activeZCFSeats.has zcfSeat = true → s.zcfSeatToSeatHandle.lookup zcfSeat = some handle →
      (message = .exitSeat handle ∨ message = .failSeat handle) →
      Effect lib s { s with
        activeZCFSeats := s.activeZCFSeats.erase zcfSeat
        zcfSeatToSeatHandle := s.zcfSeatToSeatHandle.erase zcfSeat
        sent := s.sent ++ [message] }
  | rearrange {newAllocations : List (ZCFSeat × Allocation β κ)}
      {previous : List (Allocation β κ)} {message : List (SeatHandle × Allocation β κ)} :
      (newAllocations.map (·.1)).Nodup →
      List.Forall₂ (fun e a => s.activeZCFSeats.lookup e.1 = some a) newAllocations previous →
      assertRightsConserved lib (previous.flatMap Record.values)
        ((newAllocations.map (·.2)).flatMap Record.values) = some () →
      (∀ e ∈ newAllocations, seatIsOfferSafe lib s e.1 e.2 = some true) →
      List.Forall₂ (fun e e' => s.zcfSeatToSeatHandle.lookup e.1 = some e'.1 ∧ e'.2 = e.2)
        newAllocations message →
      Effect lib s { s with
        activeZCFSeats := setAllocations s.activeZCFSeats newAllocations
        sent := s.sent ++ [.replaceAllocations message] }
  | mint {brand : β} {zcfSeat : ZCFSeat} {handle : SeatHandle} {current new : Allocation β κ}
      {gains : AmountKeywordRecord β κ} {total : Amount β κ} :
      Revalued lib s brand zcfSeat handle current new gains total →
      addToAllocation lib current gains = some new →
      Effect lib s { s with
        activeZCFSeats := s.activeZCFSeats.insert zcfSeat new
        sent := s.sent ++ [.mintAndEscrow brand total] ++ [.replaceAllocations [(handle, new)]] }
  | mintOnly {brand : β} {gains : AmountKeywordRecord β κ} {total : Amount β κ}
      {assetKind : AssetKind} : s.brandToIssuerRecord.lookup brand = some assetKind →
      sumAmountKeywordRecord lib gains brand assetKind = some total →
      Effect lib s { s with sent := s.sent ++ [.mintAndEscrow brand total] }
  | burn {brand : β} {zcfSeat : ZCFSeat} {handle : SeatHandle} {current new : Allocation β κ}
      {losses : AmountKeywordRecord β κ} {total : Amount β κ} :
      Revalued lib s brand zcfSeat handle current new losses total →
      subtractFromAllocation lib current losses = some new →
      Effect lib s { s with
        activeZCFSeats := s.activeZCFSeats.insert zcfSeat new
        sent := s.sent ++ [.replaceAllocations [(handle, new)]] ++ [.withdrawAndBurn brand total] }
  | shutdown {message : ZoeMessage β κ} : (message = .exitAllSeats ∨ message = .failAllSeats) →
      Effect lib s { s with
        activeZCFSeats := ∅
        zcfSeatToSeatHandle := ∅
        status := .exiting
        sent := s.sent ++ [message] }
  | stopAcceptingOffers : Effect lib s { s with sent := s.sent ++ [.stopAcceptingOffers] }

variable {lib : StoreLib κ} {s t : ZCF β κ}

/-- Any number of moves. -/
def Effects (lib : StoreLib κ) : ZCF β κ → ZCF β κ → Prop := Relation.ReflTransGen (Effect lib)

omit [DecidableEq β] in
theorem has_setAllocations {active : Table ZCFSeat (Allocation β κ)}
    {es : List (ZCFSeat × Allocation β κ)} {zcfSeat : ZCFSeat}
    (h : (setAllocations active es).has zcfSeat = true) (hes : ∀ e ∈ es, active.has e.1 = true) :
    active.has zcfSeat = true := by
  induction es generalizing active with
  | nil => exact h
  | cons e es ih =>
    have hactive := ih h fun e' he' =>
      Table.has_insert_iff.mpr (.inr (hes e' (List.mem_cons_of_mem _ he')))
    rcases Table.has_insert_iff.mp hactive with rfl | hactive
    · exact hes e (List.mem_cons_self ..)
    · exact hactive

omit [DecidableEq β] in
theorem lookup_setAllocations_of_notMem {active : Table ZCFSeat (Allocation β κ)}
    {es : List (ZCFSeat × Allocation β κ)} {zcfSeat : ZCFSeat} (h : zcfSeat ∉ es.map (·.1)) :
    (setAllocations active es).lookup zcfSeat = active.lookup zcfSeat := by
  induction es generalizing active with
  | nil => rfl
  | cons e es ih =>
    rw [List.map_cons, List.mem_cons, not_or] at h
    exact (ih h.2).trans ((Table.lookup_insert ..).trans (if_neg h.1))

omit [DecidableEq β] in
theorem lookup_setAllocations {active : Table ZCFSeat (Allocation β κ)}
    {es : List (ZCFSeat × Allocation β κ)} {e : ZCFSeat × Allocation β κ}
    (hnodup : (es.map (·.1)).Nodup) (he : e ∈ es) :
    (setAllocations active es).lookup e.1 = some e.2 := by
  induction es generalizing active with
  | nil => cases he
  | cons d es ih =>
    obtain ⟨hnot, hnodup⟩ := List.nodup_cons.mp hnodup
    rcases List.mem_cons.mp he with rfl | he
    · exact (lookup_setAllocations_of_notMem hnot).trans
        ((Table.lookup_insert ..).trans (if_pos rfl))
    · exact ih hnodup he

omit [DecidableEq β] in
theorem has_of_forall₂ {es : List (ZCFSeat × Allocation β κ)} {previous : List (Allocation β κ)}
    (h : List.Forall₂ (fun e a => s.activeZCFSeats.lookup e.1 = some a) es previous) :
    ∀ e ∈ es, s.activeZCFSeats.has e.1 = true := by
  induction h with
  | nil => simp
  | cons hhead _ ih => exact List.forall_mem_cons.mpr ⟨Table.has_of_lookup hhead, ih⟩

theorem Effect.handled (h : Effect lib s t) (hs : s.Handled) : t.Handled := by
  intro zcfSeat hactive
  have hinsert : ∀ {seat : ZCFSeat} {current new : Allocation β κ},
      s.activeZCFSeats.lookup seat = some current →
      (s.activeZCFSeats.insert seat new).has zcfSeat = true →
      s.activeZCFSeats.has zcfSeat = true := by
    intro seat current new hcurrent hnew
    rcases Table.has_insert_iff.mp hnew with rfl | hold
    · exact Table.has_of_lookup hcurrent
    · exact hold
  cases h with
  | emptySeat =>
    rcases Table.has_insert_iff.mp hactive with heq | hold
    · exact ⟨Table.has_insert_iff.mpr (.inl heq), Table.has_insert_iff.mpr (.inl heq)⟩
    · exact ⟨Table.has_insert_iff.mpr (.inr (hs _ hold).1),
        Table.has_insert_iff.mpr (.inr (hs _ hold).2)⟩
  | exit =>
    obtain ⟨hne, hold⟩ := Table.has_erase_iff.mp hactive
    exact ⟨Table.has_erase_iff.mpr ⟨hne, (hs _ hold).1⟩, (hs _ hold).2⟩
  | rearrange _ hprevious => exact hs _ (has_setAllocations hactive (has_of_forall₂ hprevious))
  | mint hmint => exact hs _ (hinsert hmint.active hactive)
  | burn hburn => exact hs _ (hinsert hburn.active hactive)
  | mintOnly => exact hs _ hactive
  | stopAcceptingOffers => exact hs _ hactive
  | shutdown => cases hactive

/-! ## The methods -/

omit [DecidableEq β] in
theorem orThrow_spec {α : Type} {e : ZCFFault} {o : Option α} :
    Wp (ZcfM.orThrow e o) (fun a t => t = s ∧ o = some a) (fun _ t => t = s ∧ True) s := by
  cases o with
  | none => exact ⟨rfl, trivial⟩
  | some a => exact ⟨rfl, rfl⟩

/-- Both exits of a program that only moves as listed. -/
def Moved (lib : StoreLib κ) {α : Type} (m : ZcfM β κ α) (s : ZCF β κ) : Prop :=
  Wp m (fun _ t => Effects lib s t) (fun _ t => Effects lib s t) s

theorem exit_spec (hs : s.Handled) (zcfSeat : ZCFSeat) : Moved lib (exit zcfSeat) s := by
  simp only [Moved, exit, doExitSeat, assertActive, getSeatHandle, deleteSeatHandle, ZcfM.send,
    wp_bind, wp_get]
  refine wp_ite (fun _ => .refl) fun hactive => ?_
  simp only [not_not] at hactive
  obtain ⟨handle, hhandle⟩ := Option.isSome_iff_exists.mp (hs zcfSeat hactive).1
  simp only [wp_pure, wp_modify, hhandle, ZcfM.orThrow]
  exact .single (.exit hactive hhandle (.inl rfl))

theorem fail_spec (hs : s.Handled) (zcfSeat : ZCFSeat) : Moved lib (fail zcfSeat) s := by
  simp only [Moved, fail, doExitSeat, assertActive, getSeatHandle, deleteSeatHandle, ZcfM.send,
    wp_bind, wp_get]
  refine wp_ite (fun hactive => ?_) fun _ => .refl
  simp only [wp_bind, wp_get]
  refine wp_ite (fun hnot => absurd hactive hnot) fun _ => ?_
  obtain ⟨handle, hhandle⟩ := Option.isSome_iff_exists.mp (hs zcfSeat hactive).1
  simp only [wp_pure, wp_modify, hhandle, ZcfM.orThrow]
  exact .single (.exit hactive hhandle (.inr rfl))

theorem makeEmptySeatKit_spec :
    Wp (makeEmptySeatKit : ZcfM β κ ZCFSeat) (fun _ t => Effect lib s t) (fun _ _ => False) s := by
  simp only [makeEmptySeatKit, makeZCFSeat, ZcfM.send, wp_bind, wp_get, wp_modify, wp_pure]
  exact .emptySeat

theorem shutdown_spec : Moved lib (shutdown : ZcfM β κ Unit) s := by
  simp only [Moved, shutdown, dropAllReferences, exitVat, ZcfM.send, wp_bind, wp_modify]
  exact .single (.shutdown (.inl rfl))

theorem Moved.trans {α : Type} {m : ZcfM β κ α} (h : Effects lib s t) (hm : Moved lib m t) :
    Wp m (fun _ u => Effects lib s u) (fun _ u => Effects lib s u) t :=
  wp_mono hm (fun _ _ hu => Relation.ReflTransGen.trans h hu)
    fun _ _ hu => Relation.ReflTransGen.trans h hu

theorem shutdownWithFailure_spec :
    Wp (shutdownWithFailure : ZcfM β κ Unit) (fun _ t => Effect lib s t) (fun _ _ => False) s := by
  simp only [shutdownWithFailure, dropAllReferences, exitVat, ZcfM.send, wp_bind, wp_modify]
  exact .shutdown (.inr rfl)

/-! ## Reallocation -/

theorem checkRearrange_spec (transfers : List (TransferPart β κ)) :
    Wp (checkRearrange lib transfers)
      (fun es t => t = s ∧ (es.map (·.1)).Nodup ∧
        (∀ e ∈ es, s.activeZCFSeats.has e.1 = true ∧ s.zcfSeatToSeatHandle.has e.1 = true) ∧
        (∃ previous, List.Forall₂ (fun e a => s.activeZCFSeats.lookup e.1 = some a) es previous ∧
          assertRightsConserved lib (previous.flatMap Record.values)
            ((es.map (·.2)).flatMap Record.values) = some ()) ∧
        ∀ e ∈ es, seatIsOfferSafe lib s e.1 e.2 = some true)
      (fun _ t => t = s ∧ True) s := by
  simp only [checkRearrange, wp_bind, wp_get]
  refine wp_mono orThrow_spec ?_ fun _ _ he => he
  rintro newAllocations s ⟨rfl, -⟩
  refine wp_mono (wp_forM_reads (P := fun zcfSeat => s.activeZCFSeats.has zcfSeat = true ∧
    s.zcfSeatToSeatHandle.has zcfSeat = true) fun zcfSeat _ => ?_) ?_ fun _ _ he => he
  · simp only [assertActive, wp_bind, wp_get]
    refine wp_ite (fun _ => ⟨rfl, trivial⟩) fun hactive => ?_
    simp only [wp_pure]
    refine wp_ite (fun _ => ⟨rfl, trivial⟩) fun hhandle => ?_
    exact ⟨rfl, by simpa using hactive, by simpa using hhandle⟩
  rintro _ s ⟨rfl, hknown⟩
  refine wp_mono (wp_mapM_reads (R := fun zcfSeat a => s.activeZCFSeats.lookup zcfSeat = some a)
    fun _ _ => orThrow_spec) ?_ fun _ _ he => he
  rintro previous s ⟨rfl, hprevious⟩
  refine wp_mono orThrow_spec ?_ fun _ _ he => he
  rintro _ s ⟨rfl, hconserved⟩
  refine wp_mono (wp_forM_reads (P := fun e => seatIsOfferSafe lib s e.1 e.2 = some true)
    fun e _ => ?_) ?_ fun _ _ he => he
  · simp only [wp_bind]
    refine wp_mono orThrow_spec ?_ fun _ _ he => he
    rintro safe s ⟨rfl, hsafe⟩
    refine wp_ite (fun _ => ⟨rfl, trivial⟩) fun hnot => ⟨rfl, ?_⟩
    simp only [not_not] at hnot
    rw [hsafe, hnot]
  rintro _ s ⟨rfl, hsafe⟩
  refine ⟨rfl, newAllocations.nodup, fun e he => ?_, ⟨previous, ?_, hconserved⟩, hsafe⟩
  · exact hknown e.1 (List.mem_map_of_mem he)
  · exact List.forall₂_map_left_iff.mp hprevious

omit [DecidableEq β] in
/-- The allocations of active seats are replaced without a fault. -/
theorem setAllocations_spec {es : List (ZCFSeat × Allocation β κ)}
    (hes : ∀ e ∈ es, s.activeZCFSeats.has e.1 = true) :
    Wp (es.forM fun e => setAllocation e.1 e.2)
      (fun _ t => t = { s with activeZCFSeats := setAllocations s.activeZCFSeats es })
      (fun _ _ => False) s := by
  induction es generalizing s with
  | nil => exact rfl
  | cons e es ih =>
    change Wp (setAllocation e.1 e.2 >>= fun _ => es.forM fun e => setAllocation e.1 e.2) _ _ s
    simp only [setAllocation, wp_bind, wp_get, if_pos (hes e (List.mem_cons_self ..)), wp_modify]
    exact ih fun e' he' => Table.has_insert_iff.mpr (.inr (hes e' (List.mem_cons_of_mem _ he')))

omit [DecidableEq β] in
theorem wp_orShutdown {m : ZcfM β κ Unit} {Q : ZCF β κ → Prop}
    (h : Wp m (fun _ t => Q t) (fun _ _ => False) s) :
    Wp (orShutdown m) (fun _ t => Q t) (fun _ _ => False) s := by
  simp only [orShutdown, wp_bind, wp_attempt, wp_pure]
  exact wp_mono h (fun _ _ ht => ht) fun _ _ he => he.elim

omit [DecidableEq β] in
theorem getSeatHandle_spec {zcfSeat : ZCFSeat} :
    Wp (getSeatHandle zcfSeat) (fun h t => t = s ∧ s.zcfSeatToSeatHandle.lookup zcfSeat = some h)
      (fun _ t => t = s ∧ s.zcfSeatToSeatHandle.lookup zcfSeat = none) s := by
  simp only [getSeatHandle, wp_bind, wp_get]
  cases h : s.zcfSeatToSeatHandle.lookup zcfSeat with
  | none => exact ⟨rfl, rfl⟩
  | some handle => exact ⟨rfl, rfl⟩

theorem atomicRearrange_spec (transfers : List (TransferPart β κ)) :
    Moved lib (atomicRearrange lib transfers) s := by
  simp only [Moved, atomicRearrange]
  refine wp_ite (fun _ => .refl) fun _ => ?_
  simp only [wp_bind]
  refine wp_mono (checkRearrange_spec transfers) ?_ ?_
  · rintro es s ⟨rfl, hnodup, hknown, ⟨previous, hprevious, hconserved⟩, hsafe⟩
    refine wp_mono (wp_mapM_reads (E := fun _ => True)
      (R := fun e e' => s.zcfSeatToSeatHandle.lookup e.1 = some e'.1 ∧ e'.2 = e.2) ?_) ?_ ?_
    · intro e _
      simp only [wp_bind, wp_pure]
      refine wp_mono getSeatHandle_spec ?_ ?_
      · rintro h s ⟨rfl, hhandle⟩
        exact ⟨rfl, hhandle, trivial⟩
      · rintro _ s ⟨rfl, -⟩
        exact ⟨rfl, trivial⟩
    · rintro message s ⟨rfl, hmessage⟩
      have hset : Wp (do
          es.forM fun e => setAllocation e.1 e.2
          ZcfM.send (.replaceAllocations message))
          (fun _ t => Effects lib s t) (fun _ _ => False) s := by
        simp only [wp_bind]
        refine wp_mono (setAllocations_spec fun e he => (hknown e he).1) ?_ fun _ _ he => he
        rintro _ t rfl
        exact .single (.rearrange hnodup hprevious hconserved hsafe hmessage)
      exact wp_mono (wp_orShutdown hset) (fun _ _ ht => ht) fun _ _ he => he.elim
    · rintro _ s ⟨rfl, -⟩
      exact .refl
  · rintro _ s ⟨rfl, -⟩
    exact .refl

omit [DecidableEq β] in
/-- The allocation of an active seat is replaced, or nothing happens. -/
theorem reallocate_spec {zcfSeat : ZCFSeat} {handle : SeatHandle} {new : Allocation β κ}
    (hactive : s.activeZCFSeats.has zcfSeat = true)
    (hhandle : s.zcfSeatToSeatHandle.lookup zcfSeat = some handle) :
    Wp (reallocate lib (some zcfSeat) new)
      (fun _ t => amountKeywordRecordShape lib new = true ∧ t = { s with
        activeZCFSeats := s.activeZCFSeats.insert zcfSeat new
        sent := s.sent ++ [.replaceAllocations [(handle, new)]] })
      (fun _ t => t = s ∧ amountKeywordRecordShape lib new = false) s := by
  simp only [reallocate]
  refine wp_ite (fun hshape => ⟨rfl, by simpa using hshape⟩) fun hshape => ?_
  refine wp_mono (wp_orShutdown (Q := fun t => amountKeywordRecordShape lib new = true ∧
    t = { s with
      activeZCFSeats := s.activeZCFSeats.insert zcfSeat new
      sent := s.sent ++ [.replaceAllocations [(handle, new)]] }) ?_) (fun _ _ ht => ht)
    fun _ _ he => he.elim
  simp only [setAllocation, getSeatHandle, ZcfM.orThrow, ZcfM.send, wp_bind, wp_pure, wp_get,
    if_pos hactive, wp_modify, hhandle]
  exact ⟨by simpa using hshape, trivial⟩

theorem reallocate_foreign {new : Allocation β κ} :
    Wp (reallocate lib none new) (fun _ _ => False) (fun _ t => Effects lib s t) s := by
  simp only [reallocate, orShutdown, ZcfM.orThrow]
  refine wp_ite (fun _ => .refl) fun _ => ?_
  simp only [wp_bind, wp_attempt, wp_throw]
  exact wp_mono shutdownWithFailure_spec (fun _ _ ht => .single ht) fun _ _ he => he.elim

/-! ## Mints -/

theorem coerceAndSum_spec {brand : β} {record : AmountKeywordRecord β κ} :
    Wp (coerceAndSum lib brand record)
      (fun p t => t = s ∧
        coerceAmountKeywordRecord lib s.brandToIssuerRecord.lookup (record.map .amount) =
          some p.1 ∧
        ∃ assetKind, s.brandToIssuerRecord.lookup brand = some assetKind ∧
          sumAmountKeywordRecord lib p.1 brand assetKind = some p.2)
      (fun _ t => t = s ∧ True) s := by
  simp only [coerceAndSum, wp_bind, wp_get]
  refine wp_mono orThrow_spec ?_ fun _ _ he => he
  rintro record s ⟨rfl, hcoerced⟩
  refine wp_mono orThrow_spec ?_ fun _ _ he => he
  rintro assetKind s ⟨rfl, hkind⟩
  refine wp_mono orThrow_spec ?_ fun _ _ he => he
  rintro total s ⟨rfl, hsum⟩
  exact ⟨rfl, hcoerced, assetKind, hkind, hsum⟩

omit [DecidableEq β] in
theorem currentAllocation_spec (zcfSeat : SeatArg β κ) :
    Wp (SeatArg.currentAllocation zcfSeat)
      (fun a t => t = s ∧ ∀ seat, SeatArg.toSeat zcfSeat = some seat →
        s.activeZCFSeats.lookup seat = some a)
      (fun _ t => t = s ∧ True) s := by
  cases zcfSeat with
  | absent => exact ⟨rfl, trivial⟩
  | seat seat =>
    simp only [SeatArg.currentAllocation, wp_bind, wp_get]
    refine wp_mono orThrow_spec ?_ fun _ _ he => he
    rintro a s ⟨rfl, ha⟩
    refine ⟨rfl, fun seat' hseat => ?_⟩
    cases hseat
    exact ha
  | foreign hasExited allocation offerSafe =>
    exact wp_ite (fun _ => ⟨rfl, trivial⟩) fun _ => ⟨rfl, fun _ h => by cases h⟩

theorem assertOfferSafe_spec (new : Allocation β κ) (zcfSeat : SeatArg β κ) :
    Wp (SeatArg.assertOfferSafe lib new zcfSeat)
      (fun _ t => t = s ∧ ∀ seat, SeatArg.toSeat zcfSeat = some seat →
        ∃ current, s.activeZCFSeats.lookup seat = some current ∧
          seatIsOfferSafe lib s seat (current.spread new) = some true)
      (fun _ t => t = s ∧ True) s := by
  cases zcfSeat with
  | absent => exact ⟨rfl, trivial⟩
  | seat seat =>
    simp only [SeatArg.assertOfferSafe, wp_bind, wp_get]
    refine wp_mono orThrow_spec ?_ fun _ _ he => he
    rintro current s ⟨rfl, hcurrent⟩
    refine wp_mono orThrow_spec ?_ fun _ _ he => he
    rintro safe s ⟨rfl, hsafe⟩
    refine wp_ite (fun _ => ⟨rfl, trivial⟩) fun hnot => ⟨rfl, fun seat' hseat => ?_⟩
    cases hseat
    simp only [not_not] at hnot
    exact ⟨current, hcurrent, by rw [hsafe, hnot]⟩
  | foreign hasExited allocation offerSafe =>
    exact wp_ite (fun _ => ⟨rfl, trivial⟩) fun _ => ⟨rfl, fun _ h => by cases h⟩

theorem orDefault_spec (lib : StoreLib κ) (zcfSeat : SeatArg β κ) :
    Wp (SeatArg.orDefault zcfSeat) (fun _ t => Effects lib s t) (fun _ _ => False) s := by
  cases zcfSeat with
  | absent =>
    simp only [SeatArg.orDefault, wp_bind, wp_pure]
    exact wp_mono makeEmptySeatKit_spec (fun _ _ ht => .single ht) fun _ _ he => he
  | seat seat => exact .refl
  | foreign hasExited allocation offerSafe => exact .refl

theorem Effects.handled (h : Effects lib s t) (hs : s.Handled) : t.Handled := by
  induction h with
  | refl => exact hs
  | tail _ hlast ih => exact hlast.handled ih

theorem mintGains_rest (hs : s.Handled) {brand : β} {gains : AmountKeywordRecord β κ}
    {zcfSeat : SeatArg β κ} :
    Moved lib (do
      let (gains, totalToMint) ← coerceAndSum lib brand gains
      let allocationPlusGains ← ZcfM.orThrow .allocationMath
        (addToAllocation lib (← SeatArg.currentAllocation zcfSeat) gains)
      SeatArg.assertOfferSafe lib allocationPlusGains zcfSeat
      ZcfM.send (.mintAndEscrow brand totalToMint)
      reallocate lib (SeatArg.toSeat zcfSeat) allocationPlusGains) s := by
  simp only [Moved, wp_bind]
  refine wp_mono coerceAndSum_spec ?_ ?_
  · rintro ⟨gains', total⟩ s ⟨rfl, hcoerced, assetKind, hkind, hsum⟩
    dsimp only
    refine wp_mono (currentAllocation_spec zcfSeat) ?_ ?_
    · rintro current s ⟨rfl, hcurrent⟩
      refine wp_mono orThrow_spec ?_ ?_
      · rintro new s ⟨rfl, hnew⟩
        refine wp_mono (assertOfferSafe_spec new zcfSeat) ?_ ?_
        · rintro _ s ⟨rfl, hsafe⟩
          simp only [ZcfM.send, wp_modify]
          have hmint : Effect lib s { s with sent := s.sent ++ [.mintAndEscrow brand total] } :=
            .mintOnly hkind hsum
          cases hseat : SeatArg.toSeat zcfSeat with
          | none =>
            refine wp_mono reallocate_foreign (fun _ _ hu => hu.elim) fun _ _ hu => ?_
            exact Relation.ReflTransGen.trans (.single hmint) hu
          | some seat =>
            obtain ⟨current', hcurrent', hsafe⟩ := hsafe seat hseat
            obtain rfl := Option.some.inj ((hcurrent seat hseat).symm.trans hcurrent')
            have hactive := Table.has_of_lookup hcurrent'
            obtain ⟨handle, hhandle⟩ := Option.isSome_iff_exists.mp (hs seat hactive).1
            refine wp_mono (reallocate_spec hactive hhandle) ?_ ?_
            · rintro _ t ⟨hshape, rfl⟩
              exact .single (.mint ⟨hcurrent', hhandle, hshape, hsafe, ⟨_, hcoerced⟩,
                assetKind, hkind, hsum⟩ hnew)
            · rintro _ t ⟨rfl, -⟩
              exact .single hmint
        · rintro _ s ⟨rfl, -⟩
          exact .refl
      · rintro _ s ⟨rfl, -⟩
        exact .refl
    · rintro _ s ⟨rfl, -⟩
      exact .refl
  · rintro _ s ⟨rfl, -⟩
    exact .refl

theorem mintGains_spec (hs : s.Handled) (brand : β) (gains : AmountKeywordRecord β κ)
    (zcfSeat : SeatArg β κ) : Moved lib (mintGains lib brand gains zcfSeat) s := by
  simp only [Moved, mintGains]
  refine wp_ite (fun _ => .refl) fun _ => ?_
  rw [wp_bind]
  refine wp_mono (orDefault_spec lib zcfSeat) ?_ fun _ _ he => he.elim
  intro zcfSeat t ht
  exact (mintGains_rest (ht.handled hs)).trans ht

theorem burnLosses_spec (hs : s.Handled) (brand : β) (losses : AmountKeywordRecord β κ)
    (zcfSeat : SeatArg β κ) : Moved lib (burnLosses lib brand losses zcfSeat) s := by
  simp only [Moved, burnLosses]
  refine wp_ite (fun _ => .refl) fun _ => ?_
  simp only [wp_bind]
  refine wp_mono coerceAndSum_spec ?_ ?_
  · rintro ⟨losses', total⟩ s ⟨rfl, hcoerced, assetKind, hkind, hsum⟩
    dsimp only
    refine wp_mono (currentAllocation_spec zcfSeat) ?_ ?_
    · rintro current s ⟨rfl, hcurrent⟩
      refine wp_mono orThrow_spec ?_ ?_
      · rintro new s ⟨rfl, hnew⟩
        refine wp_mono (assertOfferSafe_spec new zcfSeat) ?_ ?_
        · rintro _ s ⟨rfl, hsafe⟩
          cases hseat : SeatArg.toSeat zcfSeat with
          | none => exact wp_mono reallocate_foreign (fun _ _ hu => hu.elim) fun _ _ hu => hu
          | some seat =>
            obtain ⟨current', hcurrent', hsafe⟩ := hsafe seat hseat
            obtain rfl := Option.some.inj ((hcurrent seat hseat).symm.trans hcurrent')
            have hactive := Table.has_of_lookup hcurrent'
            obtain ⟨handle, hhandle⟩ := Option.isSome_iff_exists.mp (hs seat hactive).1
            refine wp_mono (reallocate_spec hactive hhandle) ?_ ?_
            · rintro _ t ⟨hshape, rfl⟩
              simp only [ZcfM.send, wp_modify]
              exact .single (.burn ⟨hcurrent', hhandle, hshape, hsafe, ⟨_, hcoerced⟩,
                assetKind, hkind, hsum⟩ hnew)
            · rintro _ t ⟨rfl, -⟩
              exact .refl
        · rintro _ s ⟨rfl, -⟩
          exact .refl
      · rintro _ s ⟨rfl, -⟩
        exact .refl
    · rintro _ s ⟨rfl, -⟩
      exact .refl
  · rintro _ s ⟨rfl, -⟩
    exact .refl

theorem call_spec (hs : s.Handled) (c : Call β κ) : Moved lib (c.run lib) s := by
  cases c with
  | atomicRearrange transfers => exact atomicRearrange_spec transfers
  | mintGains brand gains zcfSeat => exact mintGains_spec hs brand gains zcfSeat
  | burnLosses brand losses zcfSeat => exact burnLosses_spec hs brand losses zcfSeat
  | makeEmptySeatKit =>
    simp only [Moved, Call.run, wp_map]
    exact wp_mono makeEmptySeatKit_spec (fun _ _ ht => .single ht) fun _ _ he => he.elim
  | exit zcfSeat => exact exit_spec hs zcfSeat
  | fail zcfSeat => exact fail_spec hs zcfSeat
  | shutdown => exact shutdown_spec
  | shutdownWithFailure =>
    exact wp_mono shutdownWithFailure_spec (fun _ _ ht => .single ht) fun _ _ he => he.elim
  | stopAcceptingOffers => exact .single .stopAcceptingOffers

end ZCF

end AgoricSdk.Zoe
