import AgoricSdk.Zoe.Allocation

/-!
What the functions on allocations establish, in units of the assets: an
allocation that passes the check of offer safety covers the give or the want
side, conserved rights have equal sums for every brand, and adding a record to
an allocation or subtracting it changes the totals by the record's.
-/

namespace AgoricSdk.Zoe

open ERTP

variable {β κ : Type}

/-! ## Offer safety -/

/-- The allocation covers every required amount. A pattern that is not an exact
amount is not covered by anything. -/
def Satisfied [DecidableEq κ] (required : Record Keyword (AmountPattern β κ))
    (allocation : Allocation β κ) : Prop :=
  ∀ keyword pattern, required.get keyword = some pattern →
    ∃ amount allotted, pattern = .amount amount ∧ allocation.get keyword = some allotted ∧
      allotted.brand = amount.brand ∧ amount.worth ≤ allotted.worth

/-- All of what was given, or all of what was wanted. -/
def OfferSafe [DecidableEq κ] (proposal : ProposalRecord β κ) (allocation : Allocation β κ) :
    Prop :=
  (∀ keyword amount, proposal.give.get keyword = some amount →
    ∃ allotted, allocation.get keyword = some allotted ∧ allotted.brand = amount.brand ∧
      amount.worth ≤ allotted.worth) ∨
  Satisfied proposal.want allocation

variable [DecidableEq β] [DecidableEq κ] {lib : StoreLib κ} {allocation : Allocation β κ}

omit [DecidableEq β] in
/-- Only what is under the keywords matters. -/
theorem OfferSafe.congr {proposal : ProposalRecord β κ} {allocation' : Allocation β κ}
    (h : OfferSafe proposal allocation)
    (hget : ∀ keyword, allocation'.get keyword = allocation.get keyword) :
    OfferSafe proposal allocation' := by
  unfold OfferSafe Satisfied at *
  simpa only [hget] using h

omit [DecidableEq β] in
/-- A seat without a give side is safe whatever happens to it. -/
theorem offerSafe_empty {proposal : ProposalRecord β κ} (h : proposal.give = ∅) :
    OfferSafe proposal allocation := by
  refine .inl fun keyword amount hget => ?_
  rw [h] at hget
  cases hget

section Lawful

variable (hl : lib.Lawful)

include hl

theorem isGTEByKeyword_true {keyword : Keyword} {pattern : AmountPattern β κ}
    (h : isGTEByKeyword lib allocation keyword pattern = some true) :
    ∃ amount allotted, pattern = .amount amount ∧ allocation.get keyword = some allotted ∧
      allotted.brand = amount.brand ∧ amount.worth ≤ allotted.worth := by
  unfold isGTEByKeyword at h
  split at h
  case h_1 => cases h
  case h_2 allotted amount hget =>
    obtain ⟨hbrand, hle⟩ := AmountMath.isGTE_worth hl h
    exact ⟨amount, allotted, rfl, hget, hbrand, hle⟩
  case h_3 => cases h

theorem everyEntry_true {entries : List (Keyword × AmountPattern β κ)}
    (h : everyEntry lib allocation entries = some true) :
    ∀ e ∈ entries, ∃ amount allotted, e.2 = .amount amount ∧ allocation.get e.1 = some allotted ∧
      allotted.brand = amount.brand ∧ amount.worth ≤ allotted.worth := by
  induction entries with
  | nil => simp
  | cons e entries ih =>
    simp only [everyEntry, Option.bind_eq_bind, Option.bind_eq_some_iff] at h
    obtain ⟨enough, henough, h⟩ := h
    cases enough with
    | false => cases h
    | true =>
      intro e' he'
      rcases List.mem_cons.mp he' with rfl | he'
      · exact isGTEByKeyword_true hl henough
      · exact ih h e' he'

theorem offerSafe_of_isOfferSafe {proposal : ProposalRecord β κ}
    (h : isOfferSafe lib proposal allocation = some true) : OfferSafe proposal allocation := by
  simp only [isOfferSafe, Option.bind_eq_bind, Option.bind_eq_some_iff] at h
  obtain ⟨give, hgive, h⟩ := h
  cases give with
  | true =>
    refine .inl fun keyword amount hget => ?_
    have hmem : (keyword, AmountPattern.amount amount) ∈
        proposal.give.entries.map fun e => (e.1, AmountPattern.amount e.2) :=
      List.mem_map.mpr ⟨_, Record.get_eq_some_iff.mp hget, rfl⟩
    obtain ⟨_, allotted, heq, hallotted, hbrand, hle⟩ := everyEntry_true hl hgive _ hmem
    cases heq
    exact ⟨allotted, hallotted, hbrand, hle⟩
  | false =>
    refine .inr fun keyword pattern hget => ?_
    exact everyEntry_true hl h _ (Record.get_eq_some_iff.mp hget)

end Lawful

/-! ## Conservation of rights -/

/-- The units of one asset of a brand in an amount. -/
def worthOf (b : β) (c : Option κ) (amount : Amount β κ) : Nat :=
  if amount.brand = b then amount.worth c else 0

/-- The same in a list of amounts. -/
def sumOf (b : β) (c : Option κ) (amounts : List (Amount β κ)) : Nat :=
  (amounts.map (worthOf b c)).sum

/-- The sums of a brand in a table of sums. -/
def sumIn (sums : Table β (Amount β κ)) (b : β) (c : Option κ) : Nat :=
  (sums.lookup b).elim 0 fun amount => amount.worth c

section Rights

variable {b : β} {c : Option κ}

theorem sumOf_append (xs ys : List (Amount β κ)) : sumOf b c (xs ++ ys) = sumOf b c xs + sumOf b c ys := by
  simp [sumOf]

variable (hl : lib.Lawful)

include hl

theorem sumByBrand_sum {amounts : List (Amount β κ)} {sums out : Table β (Amount β κ)}
    (hkeys : ∀ b a, sums.lookup b = some a → a.brand = b)
    (h : sumByBrand lib amounts sums = some out) :
    (∀ b a, out.lookup b = some a → a.brand = b) ∧
      ∀ b c, sumIn out b c = sumIn sums b c + sumOf b c amounts := by
  induction amounts generalizing sums with
  | nil =>
    cases h
    exact ⟨hkeys, fun b c => rfl⟩
  | cons amount amounts ih =>
    -- writing the sum of one brand under its own key
    have hstep : ∀ sum : Amount β κ, sum.brand = amount.brand →
        (∀ c, sum.worth c = sumIn sums amount.brand c + amount.worth c) →
        sumByBrand lib amounts (sums.insert amount.brand sum) = some out →
        (∀ b a, out.lookup b = some a → a.brand = b) ∧
          ∀ b c, sumIn out b c = sumIn sums b c + sumOf b c (amount :: amounts) := by
      intro sum hbrand hsum h
      have hkeys' : ∀ b a, (sums.insert amount.brand sum).lookup b = some a → a.brand = b := by
        intro b a ha
        rw [Table.lookup_insert] at ha
        split at ha
        case isTrue hb =>
          cases ha
          exact hbrand.trans hb.symm
        case isFalse => exact hkeys b a ha
      obtain ⟨hout, hadd⟩ := ih hkeys' h
      refine ⟨hout, fun b c => ?_⟩
      rw [hadd b c]
      simp only [sumOf, List.map_cons, List.sum_cons, worthOf, sumIn, Table.lookup_insert]
      by_cases hb : b = amount.brand
      · subst hb
        simp only [if_true, Option.elim_some, hsum c, sumIn]
        omega
      · simp only [if_neg hb, if_neg (Ne.symm hb)]
        omega
    simp only [sumByBrand] at h
    split at h
    case h_1 hnone =>
      exact hstep amount rfl (fun c => by simp [sumIn, hnone]) h
    case h_2 sumSoFar hsome =>
      simp only [Option.bind_eq_bind, Option.bind_eq_some_iff] at h
      obtain ⟨sum, hsum, h⟩ := h
      obtain ⟨hbrand, -, -, hworth⟩ := AmountMath.add_worth hl hsum
      refine hstep sum (hbrand.trans (hkeys _ _ hsome)) (fun c => ?_) h
      simp [hworth, sumIn, hsome]

theorem getSums_some {left right : Table β (Amount β κ)} {l r : Amount β κ}
    (h : getSums lib left right b = some (l, r)) (c : Option κ) :
    sumIn left b c = l.worth c ∧ sumIn right b c = r.worth c := by
  unfold getSums at h
  unfold sumIn
  split at h
  case h_1 hleft hright =>
    cases h
    simp [hleft, hright]
  case h_2 hleft hright =>
    obtain ⟨e, he, h⟩ := Option.map_eq_some_iff.mp h
    cases h
    simp [hleft, hright, (AmountMath.makeEmptyFromAmount_worth hl he).2]
  case h_3 hleft hright =>
    obtain ⟨e, he, h⟩ := Option.map_eq_some_iff.mp h
    cases h
    simp [hleft, hright, (AmountMath.makeEmptyFromAmount_worth hl he).2]
  case h_4 => cases h

theorem assertEqualForBrands_some {left right : Table β (Amount β κ)} {brands : List β}
    (h : assertEqualForBrands lib left right brands = some ()) :
    ∀ b ∈ brands, ∀ c, sumIn left b c = sumIn right b c := by
  induction brands with
  | nil => simp
  | cons brand brands ih =>
    simp only [assertEqualForBrands, Option.bind_eq_bind, Option.bind_eq_some_iff] at h
    obtain ⟨⟨l, r⟩, hsums, equal, hequal, h⟩ := h
    cases equal with
    | false => cases h
    | true =>
      intro b hb c
      rcases List.mem_cons.mp hb with rfl | hb
      · obtain ⟨hleft, hright⟩ := getSums_some hl hsums c
        rw [hleft, hright, (AmountMath.isEqual_worth hl hequal).2]
      · exact ih h b hb c

theorem sumOf_eq_of_conserved {previousAmounts newAmounts : List (Amount β κ)}
    (h : assertRightsConserved lib previousAmounts newAmounts = some ()) (b : β) (c : Option κ) :
    sumOf b c previousAmounts = sumOf b c newAmounts := by
  simp only [assertRightsConserved, Option.bind_eq_bind, Option.bind_eq_some_iff] at h
  obtain ⟨left, hleft, right, hright, h⟩ := h
  have hl' := (sumByBrand_sum hl (by simp) hleft).2 b c
  have hr' := (sumByBrand_sum hl (by simp) hright).2 b c
  have hequal : sumIn left b c = sumIn right b c := by
    by_cases hb : b ∈ (left.keys ++ right.keys).dedup
    · exact assertEqualForBrands_some hl h b hb c
    · rw [List.mem_dedup, List.mem_append, not_or, Table.mem_keys_iff, Table.mem_keys_iff] at hb
      simp only [Table.has, Bool.not_eq_true, Option.isSome_eq_false_iff, Option.isNone_iff_eq_none]
        at hb
      simp [sumIn, hb.1, hb.2]
  have h0 : sumIn (∅ : Table β (Amount β κ)) b c = 0 := rfl
  omega

end Rights

/-! ## Arithmetic of allocations -/

section Arithmetic

variable {record result : AmountKeywordRecord β κ} {b : β} {c : Option κ}

omit [DecidableEq β] [DecidableEq κ] in
theorem mem_keys_spread {base update : Record Keyword (Amount β κ)} {keyword : Keyword} :
    keyword ∈ (base.spread update).keys ↔ keyword ∈ base.keys ∨ keyword ∈ update.keys := by
  simp only [Record.mem_keys_iff, Record.get_spread]
  cases hu : update.get keyword <;> cases hb : base.get keyword <;> simp

omit [DecidableEq κ] in
theorem get_addToAllocation (h : addToAllocation lib allocation record = some result)
    {keyword : Keyword} {a : Amount β κ} (ha : allocation.get keyword = some a) :
    ∃ a', result.get keyword = some a' := by
  have hmem : keyword ∈ (allocation.spread record).keys :=
    mem_keys_spread.mpr (.inl (Record.mem_keys_iff.mpr ⟨a, ha⟩))
  obtain ⟨r, hr⟩ := Option.isSome_iff_exists.mp
    (Record.isSome_of_collectEntries (Record.collect_some h) hmem)
  have hdefined : ∃ a', r = some a' := by
    rw [ha] at hr
    cases hrec : record.get keyword with
    | none =>
      rw [hrec] at hr
      cases hr
      exact ⟨a, rfl⟩
    | some d =>
      rw [hrec] at hr
      obtain ⟨a', -, rfl⟩ := Option.map_eq_some_iff.mp hr
      exact ⟨a', rfl⟩
  obtain ⟨a', rfl⟩ := hdefined
  exact ⟨a', (Record.get_collect h).mpr ⟨hmem, hr⟩⟩

omit [DecidableEq κ] in
theorem get_subtractFromAllocation (h : subtractFromAllocation lib allocation record = some result)
    {keyword : Keyword} {a : Amount β κ} (ha : allocation.get keyword = some a) :
    ∃ a', result.get keyword = some a' := by
  have hmem : keyword ∈ (allocation.spread record).keys :=
    mem_keys_spread.mpr (.inl (Record.mem_keys_iff.mpr ⟨a, ha⟩))
  obtain ⟨r, hr⟩ := Option.isSome_iff_exists.mp
    (Record.isSome_of_collectEntries (Record.collect_some h) hmem)
  have hdefined : ∃ a', r = some a' := by
    rw [ha] at hr
    cases hrec : record.get keyword with
    | none =>
      rw [hrec] at hr
      cases hr
      exact ⟨a, rfl⟩
    | some d =>
      simp only [hrec, subtractOperation, Option.bind_eq_bind, Option.bind_eq_some_iff] at hr
      obtain ⟨empty, -, hr⟩ := hr
      split at hr
      case isTrue =>
        cases hr
        exact ⟨a, rfl⟩
      case isFalse =>
        simp only [Option.bind_some, Option.bind_eq_some_iff] at hr
        obtain ⟨enough, -, hr⟩ := hr
        split at hr
        case isTrue =>
          obtain ⟨a', -, rfl⟩ := Option.map_eq_some_iff.mp hr
          exact ⟨a', rfl⟩
        case isFalse => cases hr
  obtain ⟨a', rfl⟩ := hdefined
  exact ⟨a', (Record.get_collect h).mpr ⟨hmem, hr⟩⟩

omit [DecidableEq β] [DecidableEq κ] in
/-- An allocation that keeps the keywords of another one overrides it entirely. -/
theorem get_spread_of_covers
    (h : ∀ keyword a, allocation.get keyword = some a → ∃ a', result.get keyword = some a')
    (keyword : Keyword) : (allocation.spread result).get keyword = result.get keyword := by
  rw [Record.get_spread]
  cases hr : result.get keyword with
  | some a => rfl
  | none =>
    cases ha : allocation.get keyword with
    | none => rfl
    | some a =>
      obtain ⟨a', ha'⟩ := h keyword a ha
      rw [hr] at ha'
      cases ha'

variable (hl : lib.Lawful)

include hl

theorem addOperation_worth {x y r : Option (Amount β κ)} (h : addOperation lib x y = some r) :
    r.elim 0 (worthOf b c) = x.elim 0 (worthOf b c) + y.elim 0 (worthOf b c) := by
  cases x with
  | none =>
    cases h
    simp
  | some x =>
    cases y with
    | none =>
      cases h
      simp
    | some y =>
      obtain ⟨z, hz, rfl⟩ := Option.map_eq_some_iff.mp h
      obtain ⟨hzx, hxy, -, hworth⟩ := AmountMath.add_worth hl hz
      simp only [Option.elim_some, worthOf, hzx, ← hxy, hworth, Pi.add_apply]
      split <;> rfl

theorem subtractOperation_worth {x y r : Option (Amount β κ)}
    (h : subtractOperation lib x y = some r) :
    r.elim 0 (worthOf b c) + y.elim 0 (worthOf b c) = x.elim 0 (worthOf b c) := by
  cases y with
  | none =>
    cases h
    simp
  | some y =>
    simp only [subtractOperation, Option.bind_eq_bind, Option.bind_eq_some_iff] at h
    obtain ⟨empty, hempty, h⟩ := h
    split at h
    case isTrue htrue =>
      cases h
      have hzero := (AmountMath.isEmpty_worth hl hempty).mp htrue
      simp [worthOf, hzero]
    case isFalse =>
      simp only [Option.bind_eq_some_iff] at h
      obtain ⟨x, rfl, enough, -, h⟩ := h
      split at h
      case isTrue =>
        obtain ⟨z, hz, rfl⟩ := Option.map_eq_some_iff.mp h
        obtain ⟨hzx, hxy, hworth⟩ := AmountMath.subtract_worth hl hz
        have hc := congrFun hworth c
        simp only [Pi.add_apply] at hc
        simp only [Option.elim_some, worthOf, hzx, ← hxy]
        split <;> omega
      case isFalse => cases h

end Arithmetic

/-! ## Amounts that can be coerced -/

section Coercible

variable {x y z : Amount β κ}

variable (hl : lib.Lawful)

include hl

/-! Rights can only be found conserved for such amounts: one that is alone in
its brand is compared, the others are added up before. -/

end Coercible

end AgoricSdk.Zoe
