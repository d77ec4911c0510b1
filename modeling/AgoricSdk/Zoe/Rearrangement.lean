import AgoricSdk.Zoe.AllocationOrder
import AgoricSdk.Zoe.OfferSafety

/-!
`atomicRearrange` against its purpose: the transfers are made all together or not
at all, every seat ends up with what it had and what came in less what went out,
and the order in which the transfers are listed does not matter.
-/

namespace AgoricSdk.Zoe

open ERTP StateProgram CommutingFold

variable {β κ : Type} [DecidableEq β] [DecidableEq κ] {lib : StoreLib κ}

/-! ## What the transfers say -/

/-- The seats that the part mentions. -/
def TransferPart.seats (part : TransferPart β κ) : List ZCFSeat :=
  part.fromSeat.toList ++ part.toSeat.toList

/-- What the part moves to the seat. -/
def TransferPart.increment (seat : ZCFSeat) (part : TransferPart β κ) :
    Option (AmountKeywordRecord β κ) :=
  if part.toSeat = some seat then part.toAmounts.or part.fromAmounts else none

/-- What the part takes from the seat. -/
def TransferPart.decrement (seat : ZCFSeat) (part : TransferPart β κ) :
    Option (AmountKeywordRecord β κ) :=
  if part.fromSeat = some seat then part.fromAmounts else none

def mentionedSeats (transfers : List (TransferPart β κ)) : List ZCFSeat :=
  (transfers.flatMap TransferPart.seats).dedup

def increments (transfers : List (TransferPart β κ)) (seat : ZCFSeat) :
    List (AmountKeywordRecord β κ) :=
  transfers.filterMap (TransferPart.increment seat)

def decrements (transfers : List (TransferPart β κ)) (seat : ZCFSeat) :
    List (AmountKeywordRecord β κ) :=
  transfers.filterMap (TransferPart.decrement seat)

namespace Transactions

variable {transactions result : Transactions β κ} {seat seat' : ZCFSeat}
  {record : AmountKeywordRecord β κ}

omit [DecidableEq β] [DecidableEq κ] in
theorem getAllocations_incrementAllocation :
    getAllocations (incrementAllocation transactions seat record) seat' =
      if seat = seat' then
        ((getAllocations transactions seat).1 ++ [record], (getAllocations transactions seat).2)
      else getAllocations transactions seat' := by
  unfold incrementAllocation
  rw [getAllocations, Record.get_spread, Record.get_singleton]
  split
  · rfl
  · rfl

omit [DecidableEq β] [DecidableEq κ] in
theorem getAllocations_decrementAllocation :
    getAllocations (decrementAllocation transactions seat record) seat' =
      if seat = seat' then
        ((getAllocations transactions seat).1, (getAllocations transactions seat).2 ++ [record])
      else getAllocations transactions seat' := by
  unfold decrementAllocation
  rw [getAllocations, Record.get_spread, Record.get_singleton]
  split
  · rfl
  · rfl

omit [DecidableEq β] [DecidableEq κ] in
theorem mem_keys_incrementAllocation :
    seat' ∈ (incrementAllocation transactions seat record).keys ↔
      seat' ∈ transactions.keys ∨ seat' = seat := by
  simp only [incrementAllocation, Record.mem_keys_iff, Record.get_spread, Record.get_singleton]
  by_cases h : seat = seat'
  · simp [h]
  · simp [h, Ne.symm h]

omit [DecidableEq β] [DecidableEq κ] in
theorem mem_keys_decrementAllocation :
    seat' ∈ (decrementAllocation transactions seat record).keys ↔
      seat' ∈ transactions.keys ∨ seat' = seat := by
  simp only [decrementAllocation, Record.mem_keys_iff, Record.get_spread, Record.get_singleton]
  by_cases h : seat = seat'
  · simp [h]
  · simp [h, Ne.symm h]

/-- The part is noted for the seats that it mentions, and for no others. -/
structure Noted (transactions : Transactions β κ) (part : TransferPart β κ)
    (result : Transactions β κ) : Prop where
  increments : ∀ seat, (getAllocations result seat).1 =
    (getAllocations transactions seat).1 ++ (part.increment seat).toList
  decrements : ∀ seat, (getAllocations result seat).2 =
    (getAllocations transactions seat).2 ++ (part.decrement seat).toList
  keys : ∀ seat, seat ∈ result.keys ↔ seat ∈ transactions.keys ∨ seat ∈ part.seats

end Transactions

open Transactions

section Notes

/-- The parts that say what they have to, with what is noted for each. -/
inductive Notes (lib : StoreLib κ) :
    TransferPart β κ → (Transactions β κ → Transactions β κ) → Prop where
  | toOnly (toSeat : ZCFSeat) (toAmounts : AmountKeywordRecord β κ) :
      Notes lib ⟨none, some toSeat, none, some toAmounts⟩
        (incrementAllocation · toSeat toAmounts)
  | fromOnly (fromSeat : ZCFSeat) (fromAmounts : AmountKeywordRecord β κ) :
      Notes lib ⟨some fromSeat, none, some fromAmounts, none⟩
        (decrementAllocation · fromSeat fromAmounts)
  | both (fromSeat toSeat : ZCFSeat) (fromAmounts : AmountKeywordRecord β κ)
      (toAmounts : Option (AmountKeywordRecord β κ)) :
      (∀ r, toAmounts = some r → assertRightsConserved lib fromAmounts.values r.values = some ()) →
      Notes lib ⟨some fromSeat, some toSeat, some fromAmounts, toAmounts⟩
        fun transactions => incrementAllocation
          (decrementAllocation transactions fromSeat fromAmounts) toSeat
          (toAmounts.getD fromAmounts)

variable {transactions result : Transactions β κ} {part : TransferPart β κ}
  {notes : Transactions β κ → Transactions β κ}

omit [DecidableEq κ] in
theorem noteTransfer_of_notes (h : Notes lib part notes) :
    noteTransfer lib transactions part = some (notes transactions) := by
  cases h with
  | toOnly => rfl
  | fromOnly => rfl
  | both fromSeat toSeat fromAmounts toAmounts hconserved =>
    cases toAmounts with
    | none => rfl
    | some toAmounts => simp [noteTransfer, hconserved toAmounts rfl]

omit [DecidableEq κ] in
theorem exists_notes (h : noteTransfer lib transactions part = some result) :
    ∃ notes, Notes lib part notes := by
  obtain ⟨fromSeat, toSeat, fromAmounts, toAmounts⟩ := part
  cases fromSeat with
  | none =>
    cases toSeat with
    | none => cases h
    | some toSeat =>
      cases fromAmounts with
      | some _ => cases h
      | none =>
        cases toAmounts with
        | none => cases h
        | some toAmounts => exact ⟨_, .toOnly toSeat toAmounts⟩
  | some fromSeat =>
    cases fromAmounts with
    | none => cases h
    | some fromAmounts =>
      cases toSeat with
      | none =>
        cases toAmounts with
        | none => exact ⟨_, .fromOnly fromSeat fromAmounts⟩
        | some _ => cases h
      | some toSeat =>
        refine ⟨_, .both fromSeat toSeat fromAmounts toAmounts ?_⟩
        rintro toAmounts rfl
        obtain ⟨_, hconserved, -⟩ := Option.bind_eq_some_iff.mp h
        exact hconserved

omit [DecidableEq κ] in
theorem Notes.noted (h : Notes lib part notes) (transactions : Transactions β κ) :
    Noted transactions part (notes transactions) := by
  constructor
  · intro seat
    cases h with
    | toOnly toSeat toAmounts =>
      rw [getAllocations_incrementAllocation]
      by_cases hto : toSeat = seat <;> simp [TransferPart.increment, hto]
    | fromOnly fromSeat fromAmounts =>
      rw [getAllocations_decrementAllocation]
      by_cases hfrom : fromSeat = seat <;> simp [TransferPart.increment, hfrom]
    | both fromSeat toSeat fromAmounts toAmounts =>
      simp only [getAllocations_incrementAllocation, getAllocations_decrementAllocation]
      cases toAmounts <;> by_cases hto : toSeat = seat <;> by_cases hfrom : fromSeat = seat <;>
        simp [TransferPart.increment, hto, hfrom]
  · intro seat
    cases h with
    | toOnly toSeat toAmounts =>
      rw [getAllocations_incrementAllocation]
      by_cases hto : toSeat = seat <;> simp [TransferPart.decrement, hto]
    | fromOnly fromSeat fromAmounts =>
      rw [getAllocations_decrementAllocation]
      by_cases hfrom : fromSeat = seat <;> simp [TransferPart.decrement, hfrom]
    | both fromSeat toSeat fromAmounts toAmounts =>
      simp only [getAllocations_incrementAllocation, getAllocations_decrementAllocation]
      by_cases hto : toSeat = seat <;> by_cases hfrom : fromSeat = seat <;>
        simp [TransferPart.decrement, hto, hfrom]
  · intro seat
    cases h <;>
      simp [mem_keys_incrementAllocation, mem_keys_decrementAllocation, TransferPart.seats,
        or_assoc]

/-- All the parts say what they have to. -/
def Stated (lib : StoreLib κ) (transfers : List (TransferPart β κ)) : Prop :=
  ∀ part ∈ transfers, ∃ notes, Notes lib part notes

omit [DecidableEq κ] in
/-- The increments and decrements of every seat are collected in order. -/
theorem noteTransfers_spec {transfers : List (TransferPart β κ)}
    (h : transfers.foldlM (noteTransfer lib) transactions = some result) :
    Stated lib transfers ∧
      (∀ seat, getAllocations result seat =
        ((getAllocations transactions seat).1 ++ increments transfers seat,
          (getAllocations transactions seat).2 ++ decrements transfers seat)) ∧
      ∀ seat, seat ∈ result.keys ↔
        seat ∈ transactions.keys ∨ seat ∈ transfers.flatMap TransferPart.seats := by
  induction transfers generalizing transactions with
  | nil =>
    cases h
    simp [Stated, increments, decrements]
  | cons part transfers ih =>
    obtain ⟨noted, hnoted, h⟩ := Option.bind_eq_some_iff.mp h
    obtain ⟨notes, hnotes⟩ := exists_notes hnoted
    rw [noteTransfer_of_notes hnotes] at hnoted
    cases hnoted
    obtain ⟨hstated, hget, hkeys⟩ := ih h
    obtain ⟨hincr, hdecr, hseats⟩ := hnotes.noted transactions
    refine ⟨List.forall_mem_cons.mpr ⟨⟨notes, hnotes⟩, hstated⟩, fun seat => ?_, fun seat => ?_⟩
    · rw [hget, hincr, hdecr, List.append_assoc, List.append_assoc, increments, increments,
        decrements, decrements, List.filterMap_cons, List.filterMap_cons]
      cases part.increment seat <;> cases part.decrement seat <;> rfl
    · rw [hkeys, hseats, List.flatMap_cons, List.mem_append, or_assoc]

omit [DecidableEq κ] in
theorem exists_noteTransfers {transfers : List (TransferPart β κ)} (h : Stated lib transfers)
    (transactions : Transactions β κ) :
    ∃ result, transfers.foldlM (noteTransfer lib) transactions = some result := by
  induction transfers generalizing transactions with
  | nil => exact ⟨transactions, rfl⟩
  | cons part transfers ih =>
    obtain ⟨⟨notes, hnotes⟩, hstated⟩ := List.forall_mem_cons.mp h
    obtain ⟨result, hresult⟩ := ih hstated (notes transactions)
    refine ⟨result, ?_⟩
    rw [List.foldlM_cons, noteTransfer_of_notes hnotes]
    exact hresult

end Notes

/-! ## The new allocations -/

section NewAllocations

variable {getCurrentAllocation : ZCFSeat → Option (Allocation β κ)}
  {transfers transfers' : List (TransferPart β κ)} {new new' : Record ZCFSeat (Allocation β κ)}

/-- A record of the mentioned seats with what results for each of them. -/
structure Results (lib : StoreLib κ) (getCurrentAllocation : ZCFSeat → Option (Allocation β κ))
    (transfers : List (TransferPart β κ)) (new : Record ZCFSeat (Allocation β κ)) : Prop where
  stated : Stated lib transfers
  keys : ∀ seat, seat ∈ new.keys ↔ seat ∈ mentionedSeats transfers
  get : ∀ seat allocation, new.get seat = some allocation →
    ∃ current, getCurrentAllocation seat = some current ∧
      resultingAllocation lib current (increments transfers seat, decrements transfers seat) =
        some allocation

omit [DecidableEq κ] in
theorem mem_keys_of_noted {transactions : Transactions β κ}
    (h : transfers.foldlM (noteTransfer lib) ∅ = some transactions) (seat : ZCFSeat) :
    seat ∈ transactions.keys ↔ seat ∈ mentionedSeats transfers := by
  rw [(noteTransfers_spec h).2.2, mentionedSeats, List.mem_dedup]
  exact or_iff_right (List.not_mem_nil)

omit [DecidableEq κ] in
theorem getAllocations_of_noted {transactions : Transactions β κ}
    (h : transfers.foldlM (noteTransfer lib) ∅ = some transactions) (seat : ZCFSeat) :
    getAllocations transactions seat = (increments transfers seat, decrements transfers seat) :=
  (noteTransfers_spec h).2.1 seat

omit [DecidableEq κ] in
theorem makeAllocationMap_results
    (h : makeAllocationMap lib getCurrentAllocation transfers = some new) :
    Results lib getCurrentAllocation transfers new := by
  obtain ⟨transactions, htransactions, hnew⟩ := Option.bind_eq_some_iff.mp h
  refine ⟨(noteTransfers_spec htransactions).1, fun seat => ?_, fun seat allocation hget => ?_⟩
  · rw [← mem_keys_of_noted htransactions, Record.mem_keys_iff, Record.mem_keys_iff]
    constructor
    · rintro ⟨allocation, hget⟩
      obtain ⟨pair, hpair, -⟩ := (Record.get_mapM hnew).mp hget
      exact ⟨pair, hpair⟩
    · rintro ⟨pair, hpair⟩
      obtain ⟨allocation, -, hget⟩ := Record.exists_of_mapM hnew hpair
      exact ⟨allocation, hget⟩
  · obtain ⟨pair, hpair, hresult⟩ := (Record.get_mapM hnew).mp hget
    obtain ⟨current, hcurrent, hresult⟩ := Option.bind_eq_some_iff.mp hresult
    have hnoted := getAllocations_of_noted htransactions seat
    rw [getAllocations, hpair, Option.getD_some] at hnoted
    rw [hnoted] at hresult
    exact ⟨current, hcurrent, hresult⟩

omit [DecidableEq κ] in
theorem exists_makeAllocationMap (hstated : Stated lib transfers)
    (h : ∀ seat ∈ mentionedSeats transfers, ∃ current allocation,
      getCurrentAllocation seat = some current ∧ resultingAllocation lib current
        (increments transfers seat, decrements transfers seat) = some allocation) :
    ∃ new, makeAllocationMap lib getCurrentAllocation transfers = some new := by
  obtain ⟨transactions, htransactions⟩ := exists_noteTransfers hstated (∅ : Transactions β κ)
  have hresults : ∀ seat pair, transactions.get seat = some pair →
      ∃ allocation, (do resultingAllocation lib (← getCurrentAllocation seat) pair) =
        some allocation := by
    intro seat pair hpair
    have hmem := (mem_keys_of_noted htransactions seat).mp (Record.mem_keys_iff.mpr ⟨pair, hpair⟩)
    obtain ⟨current, allocation, hcurrent, hresult⟩ := h seat hmem
    have hnoted := getAllocations_of_noted htransactions seat
    rw [getAllocations, hpair, Option.getD_some] at hnoted
    rw [← hnoted] at hresult
    exact ⟨allocation, Option.bind_eq_some_iff.mpr ⟨current, hcurrent, hresult⟩⟩
  obtain ⟨new, hnew⟩ := Record.exists_mapM hresults
  exact ⟨new, Option.bind_eq_some_iff.mpr ⟨transactions, htransactions, hnew⟩⟩

/-- The same seats, with alike allocations. -/
def SameAllocations (lib : StoreLib κ) (new new' : Record ZCFSeat (Allocation β κ)) : Prop :=
  ∀ seat, SameOutcome (SameAllocation lib) (new.get seat) (new'.get seat)

theorem makeAllocationMap_perm (hl : lib.Lawful) (hperm : transfers.Perm transfers')
    (h : makeAllocationMap lib getCurrentAllocation transfers = some new) :
    ∃ new', makeAllocationMap lib getCurrentAllocation transfers' = some new' ∧
      SameAllocations lib new new' := by
  obtain ⟨hstated, hkeys, hget⟩ := makeAllocationMap_results h
  have hmentioned : ∀ seat, seat ∈ mentionedSeats transfers' ↔ seat ∈ mentionedSeats transfers := by
    intro seat
    rw [mentionedSeats, mentionedSeats, List.mem_dedup, List.mem_dedup]
    exact (hperm.flatMap_right TransferPart.seats).mem_iff.symm
  -- Each seat gets its amounts in another order.
  have hsame : ∀ seat allocation, new.get seat = some allocation → ∃ current allocation',
      getCurrentAllocation seat = some current ∧ resultingAllocation lib current
        (increments transfers' seat, decrements transfers' seat) = some allocation' ∧
      SameAllocation lib allocation allocation' := by
    intro seat allocation hallocation
    obtain ⟨current, hcurrent, hresult⟩ := hget seat allocation hallocation
    have horder : SameOutcome (SameAllocation lib)
        (resultingAllocation lib current (increments transfers seat, decrements transfers seat))
        (resultingAllocation lib current
          (increments transfers' seat, decrements transfers' seat)) :=
      resultingAllocation_perm hl current (hperm.filterMap _) (hperm.filterMap _)
    rw [hresult] at horder
    obtain ⟨allocation', hallocation', hsame⟩ := horder.exists_of_some
    exact ⟨current, allocation', hcurrent, hallocation', hsame⟩
  obtain ⟨new', hnew'⟩ : ∃ new, makeAllocationMap lib getCurrentAllocation transfers' = some new := by
    refine exists_makeAllocationMap (fun part hpart => hstated part (hperm.mem_iff.mpr hpart)) ?_
    intro seat hseat
    obtain ⟨allocation, hallocation⟩ :=
      Record.mem_keys_iff.mp ((hkeys seat).mpr ((hmentioned seat).mp hseat))
    obtain ⟨current, allocation', hcurrent, hresult, -⟩ := hsame seat allocation hallocation
    exact ⟨current, allocation', hcurrent, hresult⟩
  obtain ⟨-, hkeys', hget'⟩ := makeAllocationMap_results hnew'
  refine ⟨new', hnew', fun seat => ?_⟩
  cases hallocation : new.get seat with
  | none =>
    have hnot : new'.get seat = none := by
      rw [Record.get_eq_none_iff, hkeys', hmentioned, ← hkeys, ← Record.get_eq_none_iff]
      exact hallocation
    rw [hnot]
    exact .none
  | some allocation =>
    obtain ⟨current, allocation', hcurrent, hresult, hsame⟩ := hsame seat allocation hallocation
    have hmem : seat ∈ new'.keys := by
      rw [hkeys', hmentioned, ← hkeys]
      exact Record.mem_keys_iff.mpr ⟨allocation, hallocation⟩
    obtain ⟨allocation'', hallocation''⟩ := Record.mem_keys_iff.mp hmem
    obtain ⟨current', hcurrent', hresult'⟩ := hget' seat allocation'' hallocation''
    rw [hcurrent] at hcurrent'
    cases hcurrent'
    rw [hresult] at hresult'
    cases hresult'
    rw [hallocation'']
    exact .some hsame

end NewAllocations

/-! ## What a seat ends up with -/

section Net

variable {old mid new : Option (Amount β κ)} {incoming outgoing : List (Amount β κ)}

/-- The first amount is of the brand and of the kind of the second. -/
def Follows (lib : StoreLib κ) (x a : Amount β κ) : Prop :=
  x.brand = a.brand ∧ ∀ kind, a.OfKind lib kind → x.OfKind lib kind

omit [DecidableEq β] [DecidableEq κ] in
theorem Follows.refl (x : Amount β κ) : Follows lib x x := ⟨rfl, fun _ hkind => hkind⟩

omit [DecidableEq β] [DecidableEq κ] in
theorem Follows.trans {x y z : Amount β κ} (h : Follows lib x y) (h' : Follows lib y z) :
    Follows lib x z :=
  ⟨h.1.trans h'.1, fun kind hkind => h.2 kind (h'.2 kind hkind)⟩

omit [DecidableEq β] [DecidableEq κ] in
theorem Follows.of_together {x y : Amount β κ} {kind : AssetKind}
    (h : Amount.Together lib kind x y) : Follows lib x y := by
  refine ⟨h.brand, fun kind' hkind' => ?_⟩
  rw [hkind'.unique h.right]
  exact h.left

/-- What becomes of an amount when others come in and go out. There is one where there
was one or one comes in, of their brand and kind, and the units of every brand add up. -/
structure IsNet (lib : StoreLib κ) (old : Option (Amount β κ)) (incoming outgoing : List (Amount β κ))
    (new : Option (Amount β κ)) : Prop where
  present : new.isSome ↔ old.isSome ∨ incoming ≠ []
  follows : ∀ x, new = some x → ∀ a ∈ old.toList ++ incoming, Follows lib x a
  units : ∀ b c, new.elim 0 (worthOf b c) + sumOf b c outgoing =
    old.elim 0 (worthOf b c) + sumOf b c incoming

theorem IsNet.start : IsNet lib old [] [] old where
  present := by simp
  follows := by
    rintro x rfl a ha
    cases List.mem_singleton.mp (by simpa using ha)
    exact .refl x
  units _ _ := rfl

theorem sumOf_toList (b : β) (c : Option κ) (y : Option (Amount β κ)) :
    sumOf b c y.toList = y.elim 0 (worthOf b c) := by
  cases y <;> simp [sumOf]

variable (hl : lib.Lawful)

include hl

theorem IsNet.add {y : Option (Amount β κ)} (h : IsNet lib old incoming outgoing mid)
    (hadd : addOperation lib mid y = some new) :
    IsNet lib old (incoming ++ y.toList) outgoing new := by
  have hsums : ∀ b c, new.elim 0 (worthOf b c) + sumOf b c outgoing =
      old.elim 0 (worthOf b c) + sumOf b c (incoming ++ y.toList) := by
    intro b c
    have hunits := h.units b c
    have hnew := addOperation_worth (b := b) (c := c) hl hadd
    rw [sumOf_append, sumOf_toList]
    omega
  cases y with
  | none =>
    rw [addOperation_none] at hadd
    cases hadd
    simpa using h
  | some y =>
    cases mid with
    | none =>
      cases hadd
      have hnone : old = none ∧ incoming = [] := by simpa using h.present
      obtain ⟨rfl, rfl⟩ := hnone
      refine ⟨by simp, ?_, hsums⟩
      rintro x ⟨⟩ a ha
      cases List.mem_singleton.mp (by simpa using ha)
      exact .refl y
    | some m =>
      obtain ⟨z, hz, rfl⟩ := Option.map_eq_some_iff.mp hadd
      obtain ⟨kind, hsum⟩ := AmountMath.isSum_of_add hl hz
      have hm : Follows lib z m := .of_together ⟨hsum.brand, hsum.ofKind, hsum.together.left⟩
      have hy : Follows lib z y :=
        .of_together ⟨hsum.brand.trans hsum.together.brand, hsum.ofKind, hsum.together.right⟩
      refine ⟨by simp, ?_, hsums⟩
      rintro x ⟨⟩ a ha
      rw [← List.append_assoc, List.mem_append] at ha
      rcases ha with ha | ha
      · exact hm.trans (h.follows m rfl a ha)
      · cases List.mem_singleton.mp ha
        exact hy

theorem IsNet.subtract {y : Option (Amount β κ)} (h : IsNet lib old incoming outgoing mid)
    (hsubtract : subtractOperation lib mid y = some new) :
    IsNet lib old incoming (outgoing ++ y.toList) new := by
  have hsums : ∀ b c, new.elim 0 (worthOf b c) + sumOf b c (outgoing ++ y.toList) =
      old.elim 0 (worthOf b c) + sumOf b c incoming := by
    intro b c
    have hunits := h.units b c
    have hnew := subtractOperation_worth (b := b) (c := c) hl hsubtract
    rw [sumOf_append, sumOf_toList]
    omega
  rcases (subtractOperation_eq_some_iff hl).mp hsubtract with
    ⟨-, rfl⟩ | ⟨d, a, z, rfl, -, rfl, hz, rfl⟩
  · exact ⟨h.present, h.follows, hsums⟩
  · obtain ⟨kind, hsum⟩ := AmountMath.isDifference_of_subtract hl hz
    have ha : Follows lib z a := .of_together ⟨hsum.brand.symm, hsum.together.left, hsum.ofKind⟩
    refine ⟨h.present, ?_, hsums⟩
    rintro x ⟨⟩ a' ha'
    exact ha.trans (h.follows a rfl a' ha')

/-! Record by record. -/

variable {current allocation : Allocation β κ} {records : List (AmountKeywordRecord β κ)}

theorem IsNet.addRecords {keyword : Keyword}
    (h : IsNet lib old incoming outgoing (current.get keyword))
    (hadd : records.foldlM (addToAllocation lib) current = some allocation) :
    IsNet lib old (incoming ++ records.filterMap (Record.get · keyword)) outgoing
      (allocation.get keyword) := by
  induction records generalizing current incoming with
  | nil =>
    cases hadd
    simpa using h
  | cons record records ih =>
    obtain ⟨next, hnext, hadd⟩ := Option.bind_eq_some_iff.mp hadd
    have hrest := ih (h.add hl (get_doOperation rfl hnext keyword)) hadd
    rw [List.append_assoc] at hrest
    rw [List.filterMap_cons]
    cases hrecord : record.get keyword with
    | none => simpa [hrecord] using hrest
    | some y => simpa [hrecord] using hrest

theorem IsNet.subtractRecords {keyword : Keyword}
    (h : IsNet lib old incoming outgoing (current.get keyword))
    (hsubtract : records.foldlM (subtractFromAllocation lib) current = some allocation) :
    IsNet lib old incoming (outgoing ++ records.filterMap (Record.get · keyword))
      (allocation.get keyword) := by
  induction records generalizing current outgoing with
  | nil =>
    cases hsubtract
    simpa using h
  | cons record records ih =>
    obtain ⟨next, hnext, hsubtract⟩ := Option.bind_eq_some_iff.mp hsubtract
    have hrest := ih (h.subtract hl (get_doOperation rfl hnext keyword)) hsubtract
    rw [List.append_assoc] at hrest
    rw [List.filterMap_cons]
    cases hrecord : record.get keyword with
    | none => simpa [hrecord] using hrest
    | some y => simpa [hrecord] using hrest

/-- A seat ends up, under every keyword, with what it had and what came in less what
went out. -/
theorem resultingAllocation_net
    {transactions : List (AmountKeywordRecord β κ) × List (AmountKeywordRecord β κ)}
    (h : resultingAllocation lib current transactions = some allocation) (keyword : Keyword) :
    IsNet lib (current.get keyword) (transactions.1.filterMap (Record.get · keyword))
      (transactions.2.filterMap (Record.get · keyword)) (allocation.get keyword) := by
  obtain ⟨incremented, hadd, hsubtract⟩ := Option.bind_eq_some_iff.mp h
  have hincremented : IsNet lib (current.get keyword)
      ([] ++ transactions.1.filterMap (Record.get · keyword)) [] (incremented.get keyword) :=
    IsNet.start.addRecords hl hadd
  exact hincremented.subtractRecords hl hsubtract

end Net

/-! ## The checks -/

namespace ZCF

section Checks

variable {s : ZCF β κ} {transfers transfers' : List (TransferPart β κ)}
  {new new' : Record ZCFSeat (Allocation β κ)}

/-- The new allocations pass all the checks. -/
structure Accepted (lib : StoreLib κ) (s : ZCF β κ) (transfers : List (TransferPart β κ))
    (new : Record ZCFSeat (Allocation β κ)) : Prop where
  map : makeAllocationMap lib s.activeZCFSeats.lookup transfers = some new
  recognized : ∀ seat ∈ new.keys, s.zcfSeatToSeatHandle.has seat = true
  conserved : assertRightsConserved lib
    ((new.keys.filterMap s.activeZCFSeats.lookup).flatMap Record.values)
    (new.values.flatMap Record.values) = some ()
  offerSafe : ∀ seat allocation, new.get seat = some allocation →
    seatIsOfferSafe lib s seat allocation = some true

omit [DecidableEq κ] in
theorem Accepted.active (h : Accepted lib s transfers new) {seat : ZCFSeat} (hseat : seat ∈ new.keys) :
    ∃ current, s.activeZCFSeats.lookup seat = some current := by
  obtain ⟨allocation, hallocation⟩ := Record.mem_keys_iff.mp hseat
  obtain ⟨current, hcurrent, -⟩ := (makeAllocationMap_results h.map).get seat allocation hallocation
  exact ⟨current, hcurrent⟩

theorem Accepted.perm (hl : lib.Lawful) (hperm : transfers.Perm transfers')
    (h : Accepted lib s transfers new) :
    ∃ new', Accepted lib s transfers' new' ∧ SameAllocations lib new new' := by
  obtain ⟨new', hmap, hsame⟩ := makeAllocationMap_perm hl hperm h.map
  have hkeys : new.keys.Perm new'.keys := keys_perm fun seat => (hsame seat).isSome_iff
  refine ⟨new', ⟨hmap, fun seat hseat => ?_, ?_, fun seat allocation' hallocation' => ?_⟩, hsame⟩
  · exact h.recognized seat (hkeys.mem_iff.mpr hseat)
  · have hprevious : PermUpTo (Amount.Alike lib)
        ((new.keys.filterMap s.activeZCFSeats.lookup).flatMap Record.values)
        ((new'.keys.filterMap s.activeZCFSeats.lookup).flatMap Record.values) :=
      .of_perm (fun _ => .inl rfl) ((hkeys.filterMap _).flatMap_right _)
    exact (assertRightsConserved_permUpTo hl hprevious
      (permUpTo_amounts (permUpTo_values hsame))).mp h.conserved
  · have hseat := (hsame seat).symm fun _ _ => sameAllocation_equivalence.symm
    rw [hallocation'] at hseat
    obtain ⟨allocation, hallocation, halike⟩ := hseat.exists_of_some
    rw [← h.offerSafe seat allocation hallocation, seatIsOfferSafe, seatIsOfferSafe]
    simp only [isOfferSafe_congr hl halike]

omit [DecidableEq β] [DecidableEq κ] in
theorem eq_filterMap_of_forall₂ {seats : List ZCFSeat} {previous : List (Allocation β κ)}
    (h : List.Forall₂ (fun seat a => s.activeZCFSeats.lookup seat = some a) seats previous) :
    previous = seats.filterMap s.activeZCFSeats.lookup := by
  induction h with
  | nil => rfl
  | cons hlookup _ ih => rw [List.filterMap_cons, hlookup, ih]

omit [DecidableEq κ] in
theorem checkRearrange_accepted (transfers : List (TransferPart β κ)) :
    Wp (checkRearrange lib transfers)
      (fun es t => t = s ∧ ∃ new, es = new.entries ∧ Accepted lib s transfers new)
      (fun _ t => t = s ∧ True) s := by
  simp only [checkRearrange, wp_bind, wp_get]
  refine wp_mono orThrow_spec ?_ fun _ _ he => he
  rintro new s ⟨rfl, hmap⟩
  refine wp_mono (wp_forM_reads (P := fun seat => s.zcfSeatToSeatHandle.has seat = true)
    fun seat _ => ?_) ?_ fun _ _ he => he
  · simp only [assertActive, wp_bind, wp_get]
    refine wp_ite (fun _ => ⟨rfl, trivial⟩) fun _ => ?_
    simp only [wp_pure]
    refine wp_ite (fun _ => ⟨rfl, trivial⟩) fun hhandle => ?_
    exact ⟨rfl, by simpa using hhandle⟩
  rintro _ s ⟨rfl, hrecognized⟩
  refine wp_mono (wp_mapM_reads (R := fun seat a => s.activeZCFSeats.lookup seat = some a)
    fun _ _ => orThrow_spec) ?_ fun _ _ he => he
  rintro previous s ⟨rfl, hprevious⟩
  refine wp_mono orThrow_spec ?_ fun _ _ he => he
  rintro _ s ⟨rfl, hconserved⟩
  refine wp_mono (wp_forM_reads (P := fun e => seatIsOfferSafe lib s e.1 e.2 = some true)
    fun e _ => ?_) ?_ fun _ _ he => he
  · simp only [wp_bind]
    refine wp_mono orThrow_spec ?_ fun _ _ he => he
    rintro safe s ⟨rfl, hsafe⟩
    refine wp_ite (fun _ => ⟨rfl, trivial⟩) fun hnot => ⟨rfl, ?_⟩
    simp only [not_not] at hnot
    rw [hsafe, hnot]
  rintro _ s ⟨rfl, hsafe⟩
  refine ⟨rfl, new, rfl, hmap, hrecognized, ?_, fun seat allocation hget => ?_⟩
  · rw [← eq_filterMap_of_forall₂ hprevious]
    exact hconserved
  · exact hsafe (seat, allocation) (Record.get_eq_some_iff.mp hget)

omit [DecidableEq β] [DecidableEq κ] in
theorem orThrow_run {α : Type} {e : ZCFFault} {o : Option α} {a : α} (h : o = some a) :
    ZcfM.orThrow e o s = .ok a s := by
  rw [h]
  rfl

omit [DecidableEq κ] in
theorem checkRearrange_run (h : Accepted lib s transfers new) :
    checkRearrange lib transfers s = .ok new.entries s := by
  have hlookup : ∀ seat ∈ new.keys,
      s.activeZCFSeats.lookup seat = some ((s.activeZCFSeats.lookup seat).getD ∅) := by
    intro seat hseat
    obtain ⟨current, hcurrent⟩ := h.active hseat
    rw [hcurrent]
    rfl
  have hprevious : new.keys.map (fun seat => (s.activeZCFSeats.lookup seat).getD ∅) =
      new.keys.filterMap s.activeZCFSeats.lookup := by
    apply eq_filterMap_of_forall₂
    rw [List.forall₂_map_right_iff]
    exact List.forall₂_same.mpr hlookup
  have hconserved := h.conserved
  rw [← hprevious] at hconserved
  rw [checkRearrange, bind_run get_run, bind_run (orThrow_run h.map), bind_run (forM_run ?_),
    bind_run (mapM_run fun seat hseat => orThrow_run (hlookup seat hseat)),
    bind_run (orThrow_run hconserved), bind_run (forM_run ?_)]
  · rfl
  · intro e he
    rw [bind_run (orThrow_run (h.offerSafe e.1 e.2 (Record.get_eq_some_iff.mpr he)))]
    rfl
  · intro seat hseat
    have hactive : s.activeZCFSeats.has seat = true := Table.has_of_lookup (hlookup seat hseat)
    have hassert : assertActive seat s = .ok () s := by
      rw [assertActive, bind_run get_run, if_neg (not_not.mpr hactive)]
      rfl
    rw [bind_run hassert, if_neg (not_not.mpr (h.recognized seat hseat))]
    rfl

omit [DecidableEq κ] in
/-- The new allocations are accepted and committed together, or the transfers are
refused and nothing changes. -/
theorem atomicRearrange_refused_or_accepted (transfers : List (TransferPart β κ)) (s : ZCF β κ) :
    (∃ e, atomicRearrange lib transfers s = .error e s) ∨
      transfers.all (transferPartShape lib) = true ∧ ∃ new, Accepted lib s transfers new := by
  unfold atomicRearrange
  split
  case isTrue => exact .inl ⟨.interfaceGuard, rfl⟩
  case isFalse hshape =>
    rw [not_not] at hshape
    cases hcheck : checkRearrange lib transfers s with
    | error e t =>
      obtain ⟨rfl, -⟩ := wp_of_error (checkRearrange_accepted transfers) hcheck
      refine .inl ⟨e, ?_⟩
      change EStateM.bind _ _ _ = _
      rw [EStateM.bind, hcheck]
    | ok es t =>
      obtain ⟨rfl, new, -, haccepted⟩ := wp_of_ok (checkRearrange_accepted transfers) hcheck
      exact .inr ⟨hshape, new, haccepted⟩

omit [DecidableEq κ] in
/-- What is committed and told to Zoe. -/
theorem atomicRearrange_of_accepted (hshape : transfers.all (transferPartShape lib) = true)
    (h : Accepted lib s transfers new) :
    Wp (atomicRearrange lib transfers)
      (fun _ t => ∃ message, List.Forall₂
          (fun e e' => s.zcfSeatToSeatHandle.lookup e.1 = some e'.1 ∧ e'.2 = e.2)
          new.entries message ∧
        t = { s with
          activeZCFSeats := setAllocations s.activeZCFSeats new.entries
          sent := s.sent ++ [.replaceAllocations message] })
      (fun _ _ => False) s := by
  have hmem : ∀ e ∈ new.entries, e.1 ∈ new.keys := fun _ he => List.mem_map_of_mem he
  have hactive : ∀ e ∈ new.entries, s.activeZCFSeats.has e.1 = true := by
    intro e he
    obtain ⟨current, hcurrent⟩ := h.active (hmem e he)
    exact Table.has_of_lookup hcurrent
  have hhandles : Wp (new.entries.mapM fun e => do return (← getSeatHandle e.1, e.2))
      (fun message t => t = s ∧ List.Forall₂
        (fun e e' => s.zcfSeatToSeatHandle.lookup e.1 = some e'.1 ∧ e'.2 = e.2)
        new.entries message) (fun _ t => t = s ∧ False) s := by
    refine wp_mapM_reads fun e he => ?_
    simp only [wp_bind, wp_pure]
    refine wp_mono getSeatHandle_spec ?_ ?_
    · rintro handle t ⟨rfl, hhandle⟩
      exact ⟨rfl, hhandle, trivial⟩
    · rintro _ t ⟨rfl, hnone⟩
      have hrecognized := h.recognized e.1 (hmem e he)
      simp [Table.has, hnone] at hrecognized
  unfold atomicRearrange
  rw [if_neg (not_not.mpr hshape), wp_bind, wp_of_run (checkRearrange_run h), wp_bind]
  refine wp_mono hhandles ?_ fun _ _ he => he.2
  rintro message s ⟨rfl, hmessage⟩
  refine wp_orShutdown ?_
  rw [wp_bind]
  refine wp_mono (setAllocations_spec hactive) ?_ fun _ _ he => he
  rintro _ t rfl
  exact ⟨message, hmessage, rfl⟩

end Checks

/-! ## The whole effect -/

section Effect

variable {s t : ZCF β κ} {transfers transfers' : List (TransferPart β κ)}
  {new : Record ZCFSeat (Allocation β κ)}

/-- The units of a brand that are allotted to a seat. -/
def allotted (s : ZCF β κ) (b : β) (c : Option κ) (seat : ZCFSeat) : Nat :=
  (s.activeZCFSeats.lookup seat).elim 0 (Record.total (worthOf b c))

/-- The transfers are made: every seat that is mentioned has what it had and what came in
less what went out, which is safe for its offer, the other seats have what they had, the
mentioned seats have as much of every brand as before, and Zoe is told about them in one
message. -/
structure Rearranged (lib : StoreLib κ) (transfers : List (TransferPart β κ)) (s t : ZCF β κ) :
    Prop where
  mentioned : ∀ seat ∈ mentionedSeats transfers, ∃ old new,
    s.activeZCFSeats.lookup seat = some old ∧ t.activeZCFSeats.lookup seat = some new ∧
      ∀ keyword, IsNet lib (old.get keyword)
        ((increments transfers seat).filterMap (Record.get · keyword))
        ((decrements transfers seat).filterMap (Record.get · keyword)) (new.get keyword)
  offerSafe : ∀ seat ∈ mentionedSeats transfers, ∃ new,
    t.activeZCFSeats.lookup seat = some new ∧ seatIsOfferSafe lib s seat new = some true
  untouched : ∀ seat, seat ∉ mentionedSeats transfers →
    t.activeZCFSeats.lookup seat = s.activeZCFSeats.lookup seat
  conserved : ∀ b c, ((mentionedSeats transfers).map (t.allotted b c)).sum =
    ((mentionedSeats transfers).map (s.allotted b c)).sum
  rest : ∃ seats message, seats.Perm (mentionedSeats transfers) ∧
    List.Forall₂ (fun seat e => s.zcfSeatToSeatHandle.lookup seat = some e.1 ∧
      t.activeZCFSeats.lookup seat = some e.2) seats message ∧
    t = { s with
      activeZCFSeats := t.activeZCFSeats
      sent := s.sent ++ [.replaceAllocations message] }

theorem sumOf_flatMap_values (b : β) (c : Option κ) (allocations : List (Allocation β κ)) :
    sumOf b c (allocations.flatMap Record.values) =
      (allocations.map (Record.total (worthOf b c))).sum := by
  induction allocations with
  | nil => rfl
  | cons allocation allocations ih =>
    rw [List.flatMap_cons, sumOf_append, ih, List.map_cons, List.sum_cons]
    rfl

theorem sum_allotted {b : β} {c : Option κ} {seats : List ZCFSeat}
    (h : ∀ seat ∈ seats, ∃ a, s.activeZCFSeats.lookup seat = some a) :
    (seats.map (s.allotted b c)).sum =
      sumOf b c ((seats.filterMap s.activeZCFSeats.lookup).flatMap Record.values) := by
  rw [sumOf_flatMap_values]
  induction seats with
  | nil => rfl
  | cons seat seats ih =>
    obtain ⟨⟨a, ha⟩, hseats⟩ := List.forall_mem_cons.mp h
    rw [List.map_cons, List.sum_cons, ih hseats, List.filterMap_cons, ha, List.map_cons,
      List.sum_cons, allotted, ha, Option.elim_some]

theorem Accepted.rearranged (hl : lib.Lawful) (h : Accepted lib s transfers new)
    {message : List (SeatHandle × Allocation β κ)}
    (hmessage : List.Forall₂ (fun e e' => s.zcfSeatToSeatHandle.lookup e.1 = some e'.1 ∧ e'.2 = e.2)
      new.entries message) :
    Rearranged lib transfers s { s with
      activeZCFSeats := setAllocations s.activeZCFSeats new.entries
      sent := s.sent ++ [.replaceAllocations message] } := by
  obtain ⟨-, hkeys, hget⟩ := makeAllocationMap_results h.map
  have hset : ∀ seat allocation, new.get seat = some allocation →
      (setAllocations s.activeZCFSeats new.entries).lookup seat = some allocation :=
    fun seat allocation hallocation =>
      lookup_setAllocations new.nodup (Record.get_eq_some_iff.mp hallocation)
  have hperm : new.keys.Perm (mentionedSeats transfers) :=
    (List.perm_ext_iff_of_nodup new.nodup (List.nodup_dedup _)).mpr hkeys
  constructor
  · intro seat hseat
    obtain ⟨allocation, hallocation⟩ := Record.mem_keys_iff.mp ((hkeys seat).mpr hseat)
    obtain ⟨current, hcurrent, hresult⟩ := hget seat allocation hallocation
    exact ⟨current, allocation, hcurrent, hset seat allocation hallocation,
      resultingAllocation_net hl hresult⟩
  · intro seat hseat
    obtain ⟨allocation, hallocation⟩ := Record.mem_keys_iff.mp ((hkeys seat).mpr hseat)
    exact ⟨allocation, hset seat allocation hallocation, h.offerSafe seat allocation hallocation⟩
  · intro seat hseat
    exact lookup_setAllocations_of_notMem (mt (hkeys seat).mp hseat)
  · intro b c
    have hvalues : new.keys.filterMap (setAllocations s.activeZCFSeats new.entries).lookup =
        new.values := by
      rw [values_eq_filterMap]
      apply List.filterMap_congr
      intro seat hseat
      obtain ⟨allocation, hallocation⟩ := Record.mem_keys_iff.mp hseat
      rw [hset seat allocation hallocation, hallocation]
    have hold := sum_allotted (b := b) (c := c) fun seat hseat => h.active hseat
    have hnew := sum_allotted (b := b) (c := c) (s := { s with
      activeZCFSeats := setAllocations s.activeZCFSeats new.entries
      sent := s.sent ++ [.replaceAllocations message] }) fun seat (hseat : seat ∈ new.keys) => by
        obtain ⟨allocation, hallocation⟩ := Record.mem_keys_iff.mp hseat
        exact ⟨allocation, hset seat allocation hallocation⟩
    rw [hvalues, ← sumOf_eq_of_conserved hl h.conserved, ← hold] at hnew
    rw [← (hperm.map _).sum_eq, ← (hperm.map _).sum_eq]
    exact hnew
  · refine ⟨new.keys, message, hperm, ?_, rfl⟩
    rw [Record.keys, List.forall₂_map_left_iff]
    have hentries : ∀ e ∈ new.entries,
        (setAllocations s.activeZCFSeats new.entries).lookup e.1 = some e.2 :=
      fun e he => lookup_setAllocations new.nodup he
    refine ((List.forall₂_and_left _ _).mpr ⟨hentries, hmessage⟩).imp ?_
    rintro e e' ⟨hlookup, hhandle, hsame⟩
    exact ⟨hhandle, hsame ▸ hlookup⟩

/-- The same seats with alike allocations. -/
def SameSeats (lib : StoreLib κ) (t t' : ZCF β κ) : Prop :=
  ∀ seat, SameOutcome (SameAllocation lib) (t.activeZCFSeats.lookup seat)
    (t'.activeZCFSeats.lookup seat)

omit [DecidableEq β] [DecidableEq κ] in
theorem lookup_setAllocations_record (active : Table ZCFSeat (Allocation β κ))
    (new : Record ZCFSeat (Allocation β κ)) (seat : ZCFSeat) :
    (setAllocations active new.entries).lookup seat = (new.get seat).or (active.lookup seat) := by
  cases hget : new.get seat with
  | some allocation => exact lookup_setAllocations new.nodup (Record.get_eq_some_iff.mp hget)
  | none => exact lookup_setAllocations_of_notMem (Record.get_eq_none_iff.mp hget)

end Effect

/-! A swap of 5 units of one brand for 3 units of another. -/

def swapStart : ZCF Nat Nat where
  instanceHandle := 0
  activeZCFSeats := (Table.insert ∅ 0 (Record.singleton "A" (units 1 5))).insert 1
    (Record.singleton "B" (units 2 3))
  zcfSeatToSeatHandle := (Table.insert ∅ 0 (.zoe 0)).insert 1 (.zoe 1)
  proposals := (Table.insert ∅ 0 { give := Record.singleton "A" (units 1 5), want := ∅ }).insert 1
    { give := ∅, want := ∅ }
  brandToIssuerRecord := ∅
  zcfMints := []
  nextZCFSeat := 2
  nextSeatHandle := 0
  status := .running
  sent := []

def swap : List (TransferPart Nat Nat) :=
  [{ fromSeat := some 0
     toSeat := some 1
     fromAmounts := some (Record.singleton "A" (units 1 5))
     toAmounts := none },
   { fromSeat := some 1
     toSeat := some 0
     fromAmounts := some (Record.singleton "B" (units 2 3))
     toAmounts := none }]

end ZCF

end AgoricSdk.Zoe
