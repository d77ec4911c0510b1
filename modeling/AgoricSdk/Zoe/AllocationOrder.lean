import AgoricSdk.ERTP.AmountSums
import AgoricSdk.Zoe.AllocationSpecs

/-!
The order of additions and subtractions does not matter for allocations. All that
the checks of a reallocation depend on is the same for allocations with alike
amounts, and for amounts that are listed in another order.
-/

namespace AgoricSdk.Zoe

open ERTP CommutingFold

variable {β κ : Type} [DecidableEq β] [DecidableEq κ] {lib : StoreLib κ}

/-- Both are absent, or both are there and alike. -/
abbrev SameAmount (lib : StoreLib κ) : Option (Amount β κ) → Option (Amount β κ) → Prop :=
  SameOutcome (Amount.Alike lib)

/-- The same keywords, with alike amounts. -/
def SameAllocation (lib : StoreLib κ) (a a' : Allocation β κ) : Prop :=
  ∀ keyword, SameAmount lib (a.get keyword) (a'.get keyword)

omit [DecidableEq β] in
theorem sameAmount_equivalence : Equivalence (SameAmount lib : Option (Amount β κ) → _ → Prop) :=
  SameOutcome.equivalence Amount.Alike.equivalence

omit [DecidableEq β] in
theorem sameAllocation_equivalence : Equivalence (SameAllocation lib : Allocation β κ → _ → Prop) where
  refl _ _ := sameAmount_equivalence.refl _
  symm h keyword := sameAmount_equivalence.symm (h keyword)
  trans h h' keyword := sameAmount_equivalence.trans (h keyword) (h' keyword)

/-! ## One keyword -/

section Operations

variable (hl : lib.Lawful)

include hl

theorem addOperation_congr {x x' y y' r : Option (Amount β κ)} (hx : SameAmount lib x x')
    (hy : SameAmount lib y y') (h : addOperation lib x y = some r) :
    ∃ r', addOperation lib x' y' = some r' ∧ SameAmount lib r r' := by
  cases hx with
  | none =>
    cases h
    exact ⟨_, rfl, hy⟩
  | some hx =>
    cases hy with
    | none =>
      cases h
      exact ⟨_, rfl, .some hx⟩
    | some hy =>
      obtain ⟨z, hz, rfl⟩ := Option.map_eq_some_iff.mp h
      obtain ⟨z', hz', halike⟩ := AmountMath.add_congr hl hx hy hz
      exact ⟨some z', Option.map_eq_some_iff.mpr ⟨z', hz', rfl⟩, .some halike⟩

omit [DecidableEq κ] hl in
@[simp] theorem addOperation_none (x : Option (Amount β κ)) :
    addOperation lib x none = some x := by
  cases x <;> rfl

theorem addOperation_swap {s a b t u : Option (Amount β κ)} (ht : addOperation lib s a = some t)
    (hu : addOperation lib t b = some u) :
    ∃ t' u', addOperation lib s b = some t' ∧ addOperation lib t' a = some u' ∧
      SameAmount lib u u' := by
  cases a with
  | none =>
    rw [addOperation_none] at ht
    cases ht
    exact ⟨u, u, hu, addOperation_none u, sameAmount_equivalence.refl u⟩
  | some x =>
    cases b with
    | none =>
      rw [addOperation_none] at hu
      cases hu
      exact ⟨s, t, addOperation_none s, ht, sameAmount_equivalence.refl t⟩
    | some y =>
      cases s with
      | none =>
        cases ht
        obtain ⟨z, hz, rfl⟩ := Option.map_eq_some_iff.mp hu
        obtain ⟨z', hz', halike⟩ := AmountMath.add_comm_alike hl hz
        exact ⟨some y, some z', rfl, Option.map_eq_some_iff.mpr ⟨z', hz', rfl⟩, .some halike⟩
      | some w =>
        obtain ⟨z, hz, rfl⟩ := Option.map_eq_some_iff.mp ht
        obtain ⟨v, hv, rfl⟩ := Option.map_eq_some_iff.mp hu
        obtain ⟨t', u', ht', hu', halike⟩ := AmountMath.add_right_comm_alike hl hz hv
        exact ⟨some t', some u', Option.map_eq_some_iff.mpr ⟨t', ht', rfl⟩,
          Option.map_eq_some_iff.mpr ⟨u', hu', rfl⟩, .some halike⟩

theorem addOperation_commuting :
    Commuting (SameAmount lib) (SameAmount lib) (addOperation lib (β := β)) :=
  .of_symm sameAmount_equivalence sameAmount_equivalence.refl
    (fun _ _ => sameAmount_equivalence.symm) (fun _ _ _ _ _ => addOperation_congr hl)
    fun _ _ _ _ _ => addOperation_swap hl

/-- A subtraction leaves the amount alone where nothing is to be subtracted, and
otherwise takes it away from an amount that covers it. -/
theorem subtractOperation_eq_some_iff {x y r : Option (Amount β κ)} :
    subtractOperation lib x y = some r ↔
      (∀ d, y = some d → AmountMath.isEmpty lib d none = some true) ∧ r = x ∨
      ∃ d a z, y = some d ∧ AmountMath.isEmpty lib d none = some false ∧ x = some a ∧
        AmountMath.subtract lib a d none = some z ∧ r = some z := by
  cases y with
  | none => simp [subtractOperation, eq_comm]
  | some d =>
    simp only [subtractOperation, Option.bind_eq_bind]
    constructor
    · intro h
      obtain ⟨empty, hempty, h⟩ := Option.bind_eq_some_iff.mp h
      cases empty with
      | true =>
        cases h
        refine .inl ⟨?_, rfl⟩
        rintro _ ⟨⟩
        exact hempty
      | false =>
        simp only [Bool.false_eq_true, if_false, Option.bind_eq_some_iff] at h
        obtain ⟨a, rfl, enough, -, h⟩ := h
        split at h
        case isFalse => cases h
        case isTrue =>
          obtain ⟨z, hz, rfl⟩ := Option.map_eq_some_iff.mp h
          exact .inr ⟨d, a, z, rfl, hempty, rfl, hz, rfl⟩
    · rintro (⟨hempty, rfl⟩ | ⟨_, a, z, ⟨⟩, hempty, rfl, hz, rfl⟩)
      · simp [hempty d rfl]
      · obtain ⟨kind, hsum⟩ := AmountMath.isDifference_of_subtract hl hz
        have htogether : Amount.Together lib kind a d :=
          ⟨hsum.brand.trans hsum.together.brand, hsum.ofKind, hsum.together.right⟩
        have hcovers : d.worth ≤ a.worth := by
          rw [hsum.worth]
          exact fun c => Nat.le_add_left ..
        have hgte : AmountMath.isGTE lib a d none = some true :=
          (AmountMath.isGTE_eq_some_iff hl).mpr ⟨⟨kind, htogether⟩, fun _ => hcovers, fun _ => rfl⟩
        simp [hempty, hgte, hz]

theorem subtractOperation_congr {x x' y y' r : Option (Amount β κ)} (hx : SameAmount lib x x')
    (hy : SameAmount lib y y') (h : subtractOperation lib x y = some r) :
    ∃ r', subtractOperation lib x' y' = some r' ∧ SameAmount lib r r' := by
  simp only [subtractOperation_eq_some_iff hl] at h ⊢
  rcases h with ⟨hempty, rfl⟩ | ⟨d, a, z, rfl, hempty, rfl, hz, rfl⟩
  · refine ⟨x', .inl ⟨?_, rfl⟩, hx⟩
    rintro d' rfl
    cases hy with
    | some hy =>
      rw [← AmountMath.isEmpty_congr hl hy]
      exact hempty _ rfl
  · obtain ⟨d', rfl, hd⟩ := hy.exists_of_some
    obtain ⟨a', rfl, ha⟩ := hx.exists_of_some
    obtain ⟨z', hz', halike⟩ := AmountMath.subtract_congr hl ha hd hz
    rw [AmountMath.isEmpty_congr hl hd] at hempty
    exact ⟨some z', .inr ⟨d', a', z', rfl, hempty, rfl, hz', rfl⟩, .some halike⟩

theorem subtractOperation_swap {s a b t u : Option (Amount β κ)}
    (ht : subtractOperation lib s a = some t) (hu : subtractOperation lib t b = some u) :
    ∃ t' u', subtractOperation lib s b = some t' ∧ subtractOperation lib t' a = some u' ∧
      SameAmount lib u u' := by
  have hrefl : SameAmount lib u u := sameAmount_equivalence.refl u
  simp only [subtractOperation_eq_some_iff hl] at ht hu ⊢
  rcases ht with ⟨hempty, rfl⟩ | ⟨d, w, z, rfl, hempty, rfl, hz, rfl⟩
  · exact ⟨u, u, hu, .inl ⟨hempty, rfl⟩, hrefl⟩
  · rcases hu with ⟨hempty', rfl⟩ | ⟨e, _, v, rfl, hempty', ⟨⟩, hv, rfl⟩
    · exact ⟨some w, some z, .inl ⟨hempty', rfl⟩,
        .inr ⟨d, w, z, rfl, hempty, rfl, hz, rfl⟩, hrefl⟩
    · obtain ⟨t', u', ht', hu', halike⟩ := AmountMath.subtract_right_comm_alike hl hz hv
      exact ⟨some t', some u', .inr ⟨e, w, t', rfl, hempty', rfl, ht', rfl⟩,
        .inr ⟨d, t', u', rfl, hempty, rfl, hu', rfl⟩, .some halike⟩

theorem subtractOperation_commuting :
    Commuting (SameAmount lib) (SameAmount lib) (subtractOperation lib (β := β)) :=
  .of_symm sameAmount_equivalence sameAmount_equivalence.refl
    (fun _ _ => sameAmount_equivalence.symm) (fun _ _ _ _ _ => subtractOperation_congr hl)
    fun _ _ _ _ _ => subtractOperation_swap hl

end Operations

/-! ## Whole records -/

section Records

variable {op : Option (Amount β κ) → Option (Amount β κ) → Option (Option (Amount β κ))}
  {allocation record result : AmountKeywordRecord β κ}

omit [DecidableEq β] [DecidableEq κ] in
/-- Every keyword has what the operation gives for it. -/
theorem get_doOperation (hnone : op none none = some none)
    (h : doOperation allocation record op = some result) (keyword : Keyword) :
    op (allocation.get keyword) (record.get keyword) = some (result.get keyword) := by
  rcases Record.get_collect_eq h keyword with ⟨-, hop⟩ | ⟨hnot, hget⟩
  · exact hop
  · rw [mem_keys_spread, not_or, ← Record.get_eq_none_iff, ← Record.get_eq_none_iff] at hnot
    rw [hnot.1, hnot.2, hget]
    exact hnone

omit [DecidableEq β] [DecidableEq κ] in
theorem exists_doOperation
    (h : ∀ keyword, ∃ r, op (allocation.get keyword) (record.get keyword) = some r) :
    ∃ result, doOperation allocation record op = some result := by
  apply Record.exists_collect
  intro keyword _
  exact h keyword

omit [DecidableEq β] in
/-- An operation that commutes on the amounts of one keyword commutes on records. -/
theorem doOperation_commuting (h : Commuting (SameAmount lib) (SameAmount lib) op)
    (hnone : op none none = some none) :
    Commuting (SameAllocation lib) (SameAllocation lib)
      (fun allocation record => doOperation allocation record op) := by
  refine .of_symm sameAllocation_equivalence sameAllocation_equivalence.refl
    (fun _ _ => sameAllocation_equivalence.symm) ?_ ?_
  · intro a a' record record' t ha hrecord ht
    have hsame : ∀ keyword, ∃ r, op (a'.get keyword) (record'.get keyword) = some r ∧
        SameAmount lib (t.get keyword) r := by
      intro keyword
      have hcongr := h.congr _ _ _ _ (ha keyword) (hrecord keyword)
      rw [get_doOperation hnone ht keyword] at hcongr
      exact hcongr.exists_of_some
    obtain ⟨t', ht'⟩ := exists_doOperation fun keyword => (hsame keyword).imp fun _ hr => hr.1
    refine ⟨t', ht', fun keyword => ?_⟩
    obtain ⟨r, hr, hsame⟩ := hsame keyword
    rw [get_doOperation hnone ht' keyword] at hr
    cases hr
    exact hsame
  · intro a record record' t u ht hu
    have hswap := fun keyword =>
      h.swap (get_doOperation hnone ht keyword) (get_doOperation hnone hu keyword)
    obtain ⟨t', ht'⟩ : ∃ t', doOperation a record' op = some t' :=
      exists_doOperation fun keyword => (hswap keyword).imp fun _ hr => hr.choose_spec.1
    have hget : ∀ keyword, ∃ r, op (t'.get keyword) (record.get keyword) = some r ∧
        SameAmount lib (u.get keyword) r := by
      intro keyword
      obtain ⟨x, y, hx, hy, hsame⟩ := hswap keyword
      rw [get_doOperation hnone ht' keyword] at hx
      cases hx
      exact ⟨y, hy, hsame⟩
    obtain ⟨u', hu'⟩ := exists_doOperation fun keyword => (hget keyword).imp fun _ hr => hr.1
    refine ⟨t', u', ht', hu', fun keyword => ?_⟩
    obtain ⟨r, hr, hsame⟩ := hget keyword
    rw [get_doOperation hnone hu' keyword] at hr
    cases hr
    exact hsame

theorem resultingAllocation_perm (hl : lib.Lawful) (current : Allocation β κ)
    {transactions transactions' : List (AmountKeywordRecord β κ) × List (AmountKeywordRecord β κ)}
    (hincr : transactions.1.Perm transactions'.1) (hdecr : transactions.2.Perm transactions'.2) :
    SameOutcome (SameAllocation lib) (resultingAllocation lib current transactions)
      (resultingAllocation lib current transactions') := by
  have hadd := doOperation_commuting (addOperation_commuting hl (β := β)) rfl
  have hsubtract := doOperation_commuting (subtractOperation_commuting hl (β := β)) rfl
  refine (hadd.foldlM_perm hincr current).bind fun a a' ha => ?_
  exact (hsubtract.foldlM_perm hdecr a).trans hsubtract.trans
    (hsubtract.foldlM_congr _ ha)

end Records

/-! ## Offer safety -/

section OfferSafety

variable {allocation allocation' : Allocation β κ}

theorem isGTEByKeyword_congr (hl : lib.Lawful) (h : SameAllocation lib allocation allocation')
    (keyword : Keyword) (requiredAmount : AmountPattern β κ) :
    isGTEByKeyword lib allocation keyword requiredAmount =
      isGTEByKeyword lib allocation' keyword requiredAmount := by
  have hkeyword := h keyword
  unfold isGTEByKeyword
  cases ha : allocation.get keyword with
  | none =>
    rw [ha] at hkeyword
    rw [hkeyword.eq_none]
  | some a =>
    rw [ha] at hkeyword
    obtain ⟨a', ha', halike⟩ := hkeyword.exists_of_some
    rw [ha']
    cases requiredAmount with
    | other => rfl
    | amount required => exact AmountMath.isGTE_congr hl halike (.inl rfl)

theorem everyEntry_congr (hl : lib.Lawful) (h : SameAllocation lib allocation allocation')
    (entries : List (Keyword × AmountPattern β κ)) :
    everyEntry lib allocation entries = everyEntry lib allocation' entries := by
  induction entries with
  | nil => rfl
  | cons e entries ih => rw [everyEntry, everyEntry, isGTEByKeyword_congr hl h, ih]

theorem isOfferSafe_congr (hl : lib.Lawful) (h : SameAllocation lib allocation allocation')
    (proposal : ProposalRecord β κ) :
    isOfferSafe lib proposal allocation = isOfferSafe lib proposal allocation' := by
  unfold isOfferSafe satisfiesGive satisfiesWant
  rw [everyEntry_congr hl h, everyEntry_congr hl h]

end OfferSafety

/-! ## Conservation of rights -/

section Rights

/-- The tables hold alike sums. -/
def SameSums (lib : StoreLib κ) (sums sums' : Table β (Amount β κ)) : Prop :=
  ∀ b, SameAmount lib (sums.lookup b) (sums'.lookup b)

theorem sameSums_equivalence : Equivalence (SameSums lib : Table β (Amount β κ) → _ → Prop) where
  refl _ _ := sameAmount_equivalence.refl _
  symm h b := sameAmount_equivalence.symm (h b)
  trans h h' b := sameAmount_equivalence.trans (h b) (h' b)

/-- One amount is added to the sum of its brand. -/
def addToSums (lib : StoreLib κ) (sums : Table β (Amount β κ)) (amount : Amount β κ) :
    Option (Table β (Amount β κ)) :=
  (addOperation lib (sums.lookup amount.brand) (some amount)).map fun sum =>
    sums.insert amount.brand (sum.getD amount)

omit [DecidableEq κ] in
theorem sumByBrand_eq_foldlM (amounts : List (Amount β κ)) (sums : Table β (Amount β κ)) :
    sumByBrand lib amounts sums = amounts.foldlM (addToSums lib) sums := by
  induction amounts generalizing sums with
  | nil => rfl
  | cons amount amounts ih =>
    rw [sumByBrand, List.foldlM_cons, addToSums]
    cases hsums : sums.lookup amount.brand with
    | none => exact ih _
    | some sumSoFar =>
      simp only [addOperation, Option.bind_eq_bind, Option.map_map]
      cases hadd : AmountMath.add lib sumSoFar amount none with
      | none => rfl
      | some sum => exact ih _

omit [DecidableEq κ] in
theorem exists_of_addOperation {x r : Option (Amount β κ)} {amount : Amount β κ}
    (h : addOperation lib x (some amount) = some r) : ∃ sum, r = some sum := by
  cases x with
  | none =>
    cases h
    exact ⟨amount, rfl⟩
  | some sumSoFar =>
    obtain ⟨sum, -, rfl⟩ := Option.map_eq_some_iff.mp h
    exact ⟨sum, rfl⟩

omit [DecidableEq κ] in
theorem addToSums_eq_some_iff {sums sums' : Table β (Amount β κ)} {amount : Amount β κ} :
    addToSums lib sums amount = some sums' ↔
      ∃ sum, addOperation lib (sums.lookup amount.brand) (some amount) = some (some sum) ∧
        sums' = sums.insert amount.brand sum := by
  unfold addToSums
  rw [Option.map_eq_some_iff]
  constructor
  · rintro ⟨r, hr, rfl⟩
    obtain ⟨sum, rfl⟩ := exists_of_addOperation hr
    exact ⟨sum, hr, rfl⟩
  · rintro ⟨sum, hsum, rfl⟩
    exact ⟨some sum, hsum, rfl⟩

theorem addToSums_commuting (hl : lib.Lawful) :
    Commuting (SameSums lib) (Amount.Alike lib) (addToSums lib (β := β)) := by
  refine .of_symm sameSums_equivalence (fun _ => .inl rfl) (fun _ _ h => h.symm) ?_ ?_
  · intro sums sums' a a' t hsums ha ht
    obtain ⟨sum, hsum, rfl⟩ := addToSums_eq_some_iff.mp ht
    have hlookup := hsums a.brand
    obtain ⟨r, hr, hsame⟩ := addOperation_congr hl hlookup (.some ha) hsum
    obtain ⟨sum', rfl, halike⟩ := hsame.exists_of_some
    rw [ha.brand] at hr
    refine ⟨_, addToSums_eq_some_iff.mpr ⟨sum', hr, rfl⟩, fun b => ?_⟩
    rw [Table.lookup_insert, Table.lookup_insert, ha.brand]
    by_cases hb : b = a'.brand
    · rw [if_pos hb, if_pos hb]
      exact hsame
    · rw [if_neg hb, if_neg hb]
      exact hsums b
  · intro sums a b t u ht hu
    obtain ⟨sum, hsum, rfl⟩ := addToSums_eq_some_iff.mp ht
    obtain ⟨sum', hsum', rfl⟩ := addToSums_eq_some_iff.mp hu
    by_cases hbrand : b.brand = a.brand
    · -- Both amounts go to one sum.
      rw [Table.lookup_insert, if_pos hbrand] at hsum'
      rw [← hbrand] at hsum
      obtain ⟨r, r', hr, hr', hsame⟩ := addOperation_swap hl hsum hsum'
      obtain ⟨x, rfl⟩ := exists_of_addOperation hr
      obtain ⟨y, rfl, halike⟩ := hsame.exists_of_some
      refine ⟨sums.insert b.brand x, (sums.insert b.brand x).insert a.brand y,
        addToSums_eq_some_iff.mpr ⟨x, hr, rfl⟩, addToSums_eq_some_iff.mpr ⟨y, ?_, rfl⟩, ?_⟩
      · rw [Table.lookup_insert, if_pos hbrand.symm]
        exact hr'
      · intro b'
        simp only [Table.lookup_insert, hbrand]
        split
        · exact hsame
        · exact sameAmount_equivalence.refl _
    · rw [Table.lookup_insert, if_neg hbrand] at hsum'
      refine ⟨sums.insert b.brand sum', (sums.insert b.brand sum').insert a.brand sum,
        addToSums_eq_some_iff.mpr ⟨sum', hsum', rfl⟩, addToSums_eq_some_iff.mpr ⟨sum, ?_, rfl⟩, ?_⟩
      · rw [Table.lookup_insert, if_neg (Ne.symm hbrand)]
        exact hsum
      · intro b'
        simp only [Table.lookup_insert]
        by_cases hb : b' = b.brand
        · rw [if_pos hb, if_neg (hb ▸ hbrand), if_pos hb]
          exact sameAmount_equivalence.refl _
        · rw [if_neg hb, if_neg hb]
          exact sameAmount_equivalence.refl _

theorem getSums_congr {left left' right right' : Table β (Amount β κ)} {b : β} {l r : Amount β κ}
    (hleft : SameSums lib left left') (hright : SameSums lib right right')
    (h : getSums lib left right b = some (l, r)) :
    ∃ l' r', getSums lib left' right' b = some (l', r') ∧ l.Alike lib l' ∧ r.Alike lib r' := by
  have hl' := hleft b
  have hr' := hright b
  unfold getSums at h ⊢
  cases hl : left.lookup b with
  | none =>
    rw [hl] at hl' h
    cases hr : right.lookup b with
    | none =>
      rw [hr] at h
      cases h
    | some rightSum =>
      rw [hr] at hr' h
      obtain ⟨rightSum', hr'', halike⟩ := hr'.exists_of_some
      obtain ⟨e, he, h⟩ := Option.map_eq_some_iff.mp h
      cases h
      rw [AmountMath.makeEmptyFromAmount_congr halike] at he
      simp only [hl'.eq_none, hr'', he]
      exact ⟨_, _, rfl, .inl rfl, halike⟩
  | some leftSum =>
    rw [hl] at hl' h
    obtain ⟨leftSum', hl'', halike⟩ := hl'.exists_of_some
    cases hr : right.lookup b with
    | none =>
      rw [hr] at hr' h
      obtain ⟨e, he, h⟩ := Option.map_eq_some_iff.mp h
      cases h
      rw [AmountMath.makeEmptyFromAmount_congr halike] at he
      simp only [hl'', hr'.eq_none, he]
      exact ⟨_, _, rfl, halike, .inl rfl⟩
    | some rightSum =>
      rw [hr] at hr' h
      obtain ⟨rightSum', hr'', halike'⟩ := hr'.exists_of_some
      cases h
      simp only [hl'', hr'']
      exact ⟨_, _, rfl, halike, halike'⟩

omit [DecidableEq κ] in
theorem assertEqualForBrands_eq_some_iff {left right : Table β (Amount β κ)} {brands : List β} :
    assertEqualForBrands lib left right brands = some () ↔ ∀ b ∈ brands, ∃ l r,
      getSums lib left right b = some (l, r) ∧ AmountMath.isEqual lib l r none = some true := by
  induction brands with
  | nil => simp [assertEqualForBrands]
  | cons b brands ih =>
    rw [List.forall_mem_cons, ← ih, assertEqualForBrands]
    constructor
    · intro h
      obtain ⟨⟨l, r⟩, hsums, h⟩ := Option.bind_eq_some_iff.mp h
      obtain ⟨equal, hequal, h⟩ := Option.bind_eq_some_iff.mp h
      cases equal with
      | false => cases h
      | true => exact ⟨⟨l, r, hsums, hequal⟩, h⟩
    · rintro ⟨⟨l, r, hsums, hequal⟩, h⟩
      simp [hsums, hequal, h]

theorem assertEqualPerBrand_congr (hl : lib.Lawful)
    {left left' right right' : Table β (Amount β κ)} (hleft : SameSums lib left left')
    (hright : SameSums lib right right') (h : assertEqualPerBrand lib left right = some ()) :
    assertEqualPerBrand lib left' right' = some () := by
  have hkeys : ∀ {sums sums' : Table β (Amount β κ)}, SameSums lib sums sums' → ∀ b,
      b ∈ sums'.keys → b ∈ sums.keys := by
    intro sums sums' hsums b hb
    rw [Table.mem_keys_iff] at hb ⊢
    exact (hsums b).isSome_iff.mpr hb
  unfold assertEqualPerBrand at h ⊢
  rw [assertEqualForBrands_eq_some_iff] at h ⊢
  intro b hb
  have hb' : b ∈ (left.keys ++ right.keys).dedup := by
    rw [List.mem_dedup, List.mem_append] at hb ⊢
    exact hb.imp (hkeys hleft b) (hkeys hright b)
  obtain ⟨l, r, hsums, hequal⟩ := h b hb'
  obtain ⟨l', r', hsums', hl', hr'⟩ := getSums_congr hleft hright hsums
  rw [AmountMath.isEqual_congr hl hl' hr'] at hequal
  exact ⟨l', r', hsums', hequal⟩

omit [DecidableEq β] in
/-- All the amounts of alike allocations. -/
theorem permUpTo_amounts {as as' : List (Allocation β κ)}
    (h : PermUpTo (SameAllocation lib) as as') :
    PermUpTo (Amount.Alike lib) (as.flatMap Record.values) (as'.flatMap Record.values) :=
  h.flatMap fun _ _ hsame => permUpTo_values hsame

theorem assertRightsConserved_permUpTo (hl : lib.Lawful) {xs xs' ys ys' : List (Amount β κ)}
    (hxs : PermUpTo (Amount.Alike lib) xs xs') (hys : PermUpTo (Amount.Alike lib) ys ys') :
    assertRightsConserved lib xs ys = some () ↔ assertRightsConserved lib xs' ys' = some () := by
  have hcommuting := addToSums_commuting hl (β := β)
  have hempty : SameSums lib (∅ : Table β (Amount β κ)) ∅ := sameSums_equivalence.refl ∅
  have hsame : SameOutcome (fun _ _ => True) (assertRightsConserved lib xs ys)
      (assertRightsConserved lib xs' ys') := by
    unfold assertRightsConserved
    simp only [sumByBrand_eq_foldlM]
    refine (hcommuting.foldlM_permUpTo hxs hempty).bind fun left left' hleft => ?_
    refine (hcommuting.foldlM_permUpTo hys hempty).bind fun right right' hright => ?_
    refine .of_forall (fun _ h => ?_) fun _ h => ?_
    · exact ⟨(), assertEqualPerBrand_congr hl hleft hright h, trivial⟩
    · exact ⟨(), assertEqualPerBrand_congr hl (sameSums_equivalence.symm hleft)
        (sameSums_equivalence.symm hright) h⟩
  have hiff := hsame.isSome_iff
  have hunit : ∀ o : Option Unit, o.isSome ↔ o = some () := by
    intro o
    cases o <;> simp
  rw [hunit, hunit] at hiff
  exact hiff

end Rights

end AgoricSdk.Zoe
