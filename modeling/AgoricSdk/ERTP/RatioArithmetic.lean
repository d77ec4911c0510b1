import Mathlib.Data.Finsupp.SMulWithZero
import AgoricSdk.ERTP.Ratio

/-!
Ratios as the rationals they stand for. Each function computes what rational
arithmetic does, rounded where it yields an amount, and its brands cancel as
dimensions do.
-/

namespace AgoricSdk.ERTP

open Finsupp

variable {β : Type}

namespace Ratio

def Valid (ratio : Ratio β) : Prop := 0 < ratio.denominator.value

def toRat (ratio : Ratio β) : ℚ := ratio.numerator.value / ratio.denominator.value

/-- How often each brand counts: once for the numerator, less once for the denominator. -/
noncomputable def dimension (ratio : Ratio β) : β →₀ ℤ :=
  single ratio.numerator.brand 1 - single ratio.denominator.brand 1

/-- Both are quotients of the same two brands, or both are plain numbers. -/
def Comparable (left right : Ratio β) : Prop :=
  (left.numerator.brand = right.numerator.brand ∧
      left.denominator.brand = right.denominator.brand) ∨
    (left.numerator.brand = left.denominator.brand ∧
      right.numerator.brand = right.denominator.brand)

theorem Valid.ne_zero {ratio : Ratio β} (h : ratio.Valid) : (ratio.denominator.value : ℚ) ≠ 0 :=
  Nat.cast_ne_zero.mpr h.ne'

end Ratio

theorem makeRatio_eq_ok {r : Ratio β} {numerator denominator : Nat} {numeratorBrand denominatorBrand : β} :
    makeRatio numerator numeratorBrand denominator denominatorBrand = .ok r ↔
      0 < denominator ∧ r = ⟨⟨numeratorBrand, numerator⟩, ⟨denominatorBrand, denominator⟩⟩ := by
  unfold makeRatio
  split <;> simp_all [eq_comm]

theorem makeRatio_returns {numerator denominator : Nat} {numeratorBrand denominatorBrand : β}
    (h : 0 < denominator) :
    makeRatio numerator numeratorBrand denominator denominatorBrand =
      .ok ⟨⟨numeratorBrand, numerator⟩, ⟨denominatorBrand, denominator⟩⟩ :=
  makeRatio_eq_ok.mpr ⟨h, rfl⟩

theorem toRat_le_iff {left right : Ratio β} (hl : left.Valid) (hr : right.Valid) :
    right.toRat ≤ left.toRat ↔
      left.denominator.value * right.numerator.value ≤
        left.numerator.value * right.denominator.value := by
  have hld : (0 : ℚ) < left.denominator.value := Nat.cast_pos.mpr hl
  have hrd : (0 : ℚ) < right.denominator.value := Nat.cast_pos.mpr hr
  rw [Ratio.toRat, Ratio.toRat, div_le_div_iff₀ hrd hld, mul_comm, ← Nat.cast_mul, ← Nat.cast_mul,
    Nat.cast_le]

theorem invertRatio_eq_ok {r s : Ratio β} :
    invertRatio r = .ok s ↔ 0 < r.numerator.value ∧ s = ⟨r.denominator, r.numerator⟩ :=
  makeRatio_eq_ok

theorem invertRatio_inverts {r s : Ratio β} (h : invertRatio r = .ok s) :
    s.Valid ∧ s.toRat = r.toRat⁻¹ ∧ s.dimension = -r.dimension := by
  obtain ⟨hpos, rfl⟩ := invertRatio_eq_ok.mp h
  exact ⟨hpos, (inv_div _ _).symm, (neg_sub _ _).symm⟩

theorem invertRatio_returns {r : Ratio β} (hr : r.Valid) :
    (∃ s, invertRatio r = .ok s) ↔ r.toRat ≠ 0 := by
  rw [Ratio.toRat, div_ne_zero_iff, Nat.cast_ne_zero, ← Nat.pos_iff_ne_zero]
  constructor
  · rintro ⟨s, h⟩
    exact ⟨(invertRatio_eq_ok.mp h).1, hr.ne_zero⟩
  · exact fun h => ⟨_, invertRatio_eq_ok.mpr ⟨h.1, rfl⟩⟩

variable [DecidableEq β] {a b : NatAmount β} {r s left right : Ratio β} {mode : RoundingMode}
  {divideOp : DivideOp}

/-! ## Scaling an amount -/

theorem multiplyHelper_eq_ok (h : divideOp.Divides mode) :
    multiplyHelper a r divideOp = .ok b ↔
      a.brand = r.denominator.brand ∧ r.Valid ∧
        b = ⟨r.numerator.brand, mode.round (a.value * r.toRat)⟩ := by
  have hquotient : ((natSafeMath.multiply a.value r.numerator.value : ℕ) : ℚ) /
      r.denominator.value = a.value * r.toRat := by
    rw [natSafeMath.multiply, Nat.cast_mul, mul_div_assoc]
    rfl
  unfold multiplyHelper
  split
  next hbrand =>
    rw [bind_eq_ok]
    constructor
    · rintro ⟨value, hvalue, hb⟩
      obtain ⟨hpos, rfl⟩ := (h _ _ _).mp (safely_eq_ok.mp hvalue)
      cases hb
      rw [hquotient]
      exact ⟨hbrand, hpos, rfl⟩
    · rintro ⟨_, hvalid, rfl⟩
      have hvalue := (h (natSafeMath.multiply a.value r.numerator.value) _ _).mpr ⟨hvalid, rfl⟩
      rw [hquotient] at hvalue
      exact ⟨_, safely_eq_ok.mpr hvalue, rfl⟩
  next hbrand =>
    constructor
    · intro hb
      cases hb
    · exact fun hb => absurd hb.1 hbrand

theorem divideHelper_eq_ok (h : divideOp.Divides mode) :
    divideHelper a r divideOp = .ok b ↔
      a.brand = r.numerator.brand ∧ 0 < r.numerator.value ∧
        b = ⟨r.denominator.brand, mode.round (a.value / r.toRat)⟩ := by
  have hquotient : ((natSafeMath.multiply a.value r.denominator.value : ℕ) : ℚ) /
      r.numerator.value = a.value / r.toRat := by
    rw [natSafeMath.multiply, Nat.cast_mul, Ratio.toRat, div_div_eq_mul_div]
  unfold divideHelper
  split
  next hbrand =>
    rw [bind_eq_ok]
    constructor
    · rintro ⟨value, hvalue, hb⟩
      obtain ⟨hpos, rfl⟩ := (h _ _ _).mp (safely_eq_ok.mp hvalue)
      cases hb
      rw [hquotient]
      exact ⟨hbrand, hpos, rfl⟩
    · rintro ⟨_, hpos, rfl⟩
      have hvalue := (h (natSafeMath.multiply a.value r.denominator.value) _ _).mpr ⟨hpos, rfl⟩
      rw [hquotient] at hvalue
      exact ⟨_, safely_eq_ok.mpr hvalue, rfl⟩
  next hbrand =>
    constructor
    · intro hb
      cases hb
    · exact fun hb => absurd hb.1 hbrand

theorem floorDivideBy_greatest (hr : r.Valid) (h : floorDivideBy a r = .ok b) :
    IsGreatest { x : ℕ | x * r.toRat ≤ a.value } b.value := by
  obtain ⟨-, hpos, rfl⟩ := (divideHelper_eq_ok natSafeMath.floorDivide_divides).mp h
  have hvalue : 0 < r.toRat := div_pos (Nat.cast_pos.mpr hpos) (Nat.cast_pos.mpr hr)
  have hmem : ∀ x : ℕ, x * r.toRat ≤ a.value ↔ x ≤ ⌊(a.value : ℚ) / r.toRat⌋₊ := by
    intro x
    rw [Nat.le_floor_iff (by positivity), le_div_iff₀ hvalue]
  constructor
  · exact (hmem _).mpr le_rfl
  · exact fun x hx => (hmem x).mp hx

theorem ceilMultiplyBy_floorDivideBy (hr : r.Valid) (h : floorDivideBy a r = .ok b) :
    ∃ c, ceilMultiplyBy b r = .ok c ∧ c.brand = a.brand ∧ c.value ≤ a.value := by
  obtain ⟨hmem, -⟩ := floorDivideBy_greatest hr h
  obtain ⟨hbrand, -, rfl⟩ := (divideHelper_eq_ok natSafeMath.floorDivide_divides).mp h
  exact ⟨_, (multiplyHelper_eq_ok natSafeMath.ceilDivide_divides).mpr ⟨rfl, hr, rfl⟩, hbrand.symm,
    Nat.ceil_le.mpr hmem⟩

/-! ## Ratios from ratios -/

theorem checkSameBrands_eq_ok :
    checkSameBrands left right = .ok () ↔
      left.numerator.brand = right.numerator.brand ∧
        left.denominator.brand = right.denominator.brand := by
  unfold checkSameBrands
  split
  · simp_all
  · split <;> simp_all

theorem addRatios_eq_ok (hl : left.Valid) (hr : right.Valid) (h : addRatios left right = .ok s) :
    s.Valid ∧ s.toRat = left.toRat + right.toRat ∧ s.numerator.brand = left.numerator.brand ∧
      s.denominator.brand = left.denominator.brand := by
  obtain ⟨_, -, h⟩ := bind_eq_ok.mp h
  obtain ⟨hpos, rfl⟩ := makeRatio_eq_ok.mp h
  refine ⟨hpos, ?_, rfl, rfl⟩
  simp only [Ratio.toRat, natSafeMath.multiply, natSafeMath.add, Nat.cast_add, Nat.cast_mul]
  rw [div_add_div _ _ hl.ne_zero hr.ne_zero]

theorem addRatios_returns (hl : left.Valid) (hr : right.Valid) :
    (∃ s, addRatios left right = .ok s) ↔
      left.numerator.brand = right.numerator.brand ∧
        left.denominator.brand = right.denominator.brand := by
  rw [← checkSameBrands_eq_ok]
  constructor
  · rintro ⟨s, h⟩
    obtain ⟨_, hbrands, -⟩ := bind_eq_ok.mp h
    exact hbrands
  · exact fun hbrands =>
      ⟨_, bind_eq_ok.mpr ⟨(), hbrands, makeRatio_returns (Nat.mul_pos hl hr)⟩⟩

theorem subtractRatios_eq_ok (hl : left.Valid) (hr : right.Valid)
    (h : subtractRatios left right = .ok s) :
    s.Valid ∧ s.toRat = left.toRat - right.toRat ∧ s.numerator.brand = left.numerator.brand ∧
      s.denominator.brand = left.denominator.brand := by
  obtain ⟨_, -, h⟩ := bind_eq_ok.mp h
  obtain ⟨numerator, hnumerator, h⟩ := bind_eq_ok.mp h
  obtain ⟨hle, rfl⟩ := natSafeMath.subtract_eq_ok.mp (safely_eq_ok.mp hnumerator)
  obtain ⟨hpos, rfl⟩ := makeRatio_eq_ok.mp h
  refine ⟨hpos, ?_, rfl, rfl⟩
  simp only [natSafeMath.multiply] at hle
  simp only [Ratio.toRat, natSafeMath.multiply, Nat.cast_sub hle, Nat.cast_mul]
  rw [div_sub_div _ _ hl.ne_zero hr.ne_zero]

theorem subtractRatios_returns (hl : left.Valid) (hr : right.Valid) :
    (∃ s, subtractRatios left right = .ok s) ↔
      left.numerator.brand = right.numerator.brand ∧
        left.denominator.brand = right.denominator.brand ∧ right.toRat ≤ left.toRat := by
  rw [← and_assoc, ← checkSameBrands_eq_ok, toRat_le_iff hl hr]
  constructor
  · rintro ⟨s, h⟩
    obtain ⟨_, hbrands, h⟩ := bind_eq_ok.mp h
    obtain ⟨numerator, hnumerator, h⟩ := bind_eq_ok.mp h
    exact ⟨hbrands, (natSafeMath.subtract_eq_ok.mp (safely_eq_ok.mp hnumerator)).1⟩
  · rintro ⟨hbrands, hle⟩
    have hnumerator := safely_eq_ok (β := β).mpr (natSafeMath.subtract_eq_ok.mpr ⟨hle, rfl⟩)
    exact ⟨_, bind_eq_ok.mpr ⟨(), hbrands, bind_eq_ok.mpr ⟨_, hnumerator,
      makeRatio_returns (Nat.mul_pos hl hr)⟩⟩⟩

theorem getRemainingBrands_dimension {numeratorBrand denominatorBrand : β}
    (h : getRemainingBrands left right = .ok (numeratorBrand, denominatorBrand)) :
    single numeratorBrand 1 - single denominatorBrand 1 = left.dimension + right.dimension := by
  unfold getRemainingBrands at h
  unfold Ratio.dimension
  split at h
  next hcancel =>
    cases h
    rw [hcancel]
    abel
  split at h
  next hcancel =>
    cases h
    rw [hcancel]
    abel
  split at h
  next hcancel =>
    cases h
    rw [hcancel]
    abel
  split at h
  next hcancel =>
    cases h
    rw [hcancel]
    abel
  cases h

theorem getRemainingBrands_complete {numeratorBrand denominatorBrand : β}
    (h : left.dimension + right.dimension = single numeratorBrand 1 - single denominatorBrand 1) :
    ∃ brands, getRemainingBrands left right = .ok brands := by
  have hat : ∀ x, (left.dimension + right.dimension) x =
      (single numeratorBrand 1 - single denominatorBrand 1 : β →₀ ℤ) x := fun x => by rw [h]
  have hleft := hat left.numerator.brand
  have hright := hat right.numerator.brand
  simp only [Ratio.dimension, Finsupp.add_apply, Finsupp.sub_apply, single_apply] at hleft hright
  unfold getRemainingBrands
  split
  · exact ⟨_, rfl⟩
  · split
    · exact ⟨_, rfl⟩
    · split
      · exact ⟨_, rfl⟩
      · split
        · exact ⟨_, rfl⟩
        · exfalso
          grind

theorem multiplyRatios_eq_ok (h : multiplyRatios left right = .ok s) :
    s.Valid ∧ s.toRat = left.toRat * right.toRat ∧
      s.dimension = left.dimension + right.dimension := by
  obtain ⟨⟨numeratorBrand, denominatorBrand⟩, hbrands, h⟩ := bind_eq_ok.mp h
  obtain ⟨hpos, rfl⟩ := makeRatio_eq_ok.mp h
  refine ⟨hpos, ?_, getRemainingBrands_dimension hbrands⟩
  simp only [Ratio.toRat, natSafeMath.multiply, Nat.cast_mul]
  rw [div_mul_div_comm]

theorem multiplyRatios_returns (hl : left.Valid) (hr : right.Valid) :
    (∃ s, multiplyRatios left right = .ok s) ↔
      ∃ numeratorBrand denominatorBrand, left.dimension + right.dimension =
        single numeratorBrand 1 - single denominatorBrand 1 := by
  constructor
  · rintro ⟨s, h⟩
    exact ⟨s.numerator.brand, s.denominator.brand, (multiplyRatios_eq_ok h).2.2.symm⟩
  · rintro ⟨numeratorBrand, denominatorBrand, h⟩
    obtain ⟨brands, hbrands⟩ := getRemainingBrands_complete h
    exact ⟨_, bind_eq_ok.mpr ⟨brands, hbrands, makeRatio_returns (Nat.mul_pos hl hr)⟩⟩

theorem oneMinus_eq_ok (hr : r.Valid) (h : oneMinus r = .ok s) :
    s.Valid ∧ s.toRat = 1 - r.toRat ∧ s.numerator.brand = r.numerator.brand ∧
      s.denominator.brand = r.denominator.brand := by
  unfold oneMinus at h
  split at h
  · cases h
  next hbrand =>
    split at h
    · cases h
    · obtain ⟨numerator, hnumerator, h⟩ := bind_eq_ok.mp h
      obtain ⟨hle, rfl⟩ := natSafeMath.subtract_eq_ok.mp (safely_eq_ok.mp hnumerator)
      obtain ⟨hpos, rfl⟩ := makeRatio_eq_ok.mp h
      refine ⟨hpos, ?_, rfl, not_not.mp hbrand⟩
      simp only [Ratio.toRat, Nat.cast_sub hle]
      rw [sub_div, div_self hr.ne_zero]

theorem oneMinus_returns (hr : r.Valid) :
    (∃ s, oneMinus r = .ok s) ↔
      r.numerator.brand = r.denominator.brand ∧ r.toRat ≤ 1 := by
  have hpos : (0 : ℚ) < r.denominator.value := Nat.cast_pos.mpr hr
  rw [Ratio.toRat, div_le_one hpos, Nat.cast_le]
  unfold oneMinus
  split
  · simp_all
  · split
    · simp_all
    next hbrand hle =>
      have hnumerator := safely_eq_ok (β := β).mpr
        (natSafeMath.subtract_eq_ok.mpr ⟨not_lt.mp hle, rfl⟩)
      constructor
      · exact fun _ => ⟨not_not.mp hbrand, not_lt.mp hle⟩
      · exact fun _ => ⟨_, bind_eq_ok.mpr ⟨_, hnumerator, makeRatio_returns hr⟩⟩

theorem checkComparable_eq_ok :
    checkComparable left right = .ok () ↔
      left.Comparable right ∨
        left.numerator.brand ≠ right.numerator.brand ∧
          left.numerator.brand ≠ left.denominator.brand := by
  unfold checkComparable Ratio.Comparable
  split
  · split <;> grind
  · split
    · split <;> grind
    · grind

theorem ratioGTE_eq_ok (hl : left.Valid) (hr : right.Valid) {gte : Bool} :
    ratioGTE left right = .ok gte ↔
      checkComparable left right = .ok () ∧ (gte = true ↔ right.toRat ≤ left.toRat) := by
  have hgte : natSafeMath.isGTE
      (natSafeMath.multiply left.numerator.value right.denominator.value)
      (natSafeMath.multiply right.numerator.value left.denominator.value) =
        decide (right.toRat ≤ left.toRat) := by
    rw [natSafeMath.isGTE, decide_eq_decide, toRat_le_iff hl hr]
    simp only [natSafeMath.multiply, ge_iff_le, Nat.mul_comm]
  unfold ratioGTE
  rw [bind_eq_ok, hgte]
  constructor
  · rintro ⟨_, hcheck, h⟩
    cases h
    exact ⟨hcheck, decide_eq_true_iff⟩
  · rintro ⟨hcheck, h⟩
    have hdecide := Bool.eq_iff_iff.mpr (decide_eq_true_iff.trans h.symm)
    exact ⟨(), hcheck, congrArg Except.ok hdecide⟩

omit [DecidableEq β] in
/-- A smaller denominator makes the numerator the nearest one. -/
theorem quantize_rounds {newDen : Nat} (hr : r.Valid) (h : quantize r newDen = .ok s) :
    (r.denominator.value < newDen ∧ s = r) ∨
      newDen ≤ r.denominator.value ∧ s.Valid ∧ s.numerator.brand = r.numerator.brand ∧
        s.denominator = ⟨r.denominator.brand, newDen⟩ ∧
        RoundsHalfEven (r.toRat * newDen) s.numerator.value := by
  unfold quantize at h
  dsimp only at h
  split at h
  next hlt =>
    cases h
    exact .inl ⟨hlt, rfl⟩
  next hle =>
    obtain ⟨newNum, hnewNum, h⟩ := bind_eq_ok.mp h
    obtain ⟨hpos, rfl⟩ := makeRatio_eq_ok.mp h
    refine .inr ⟨not_lt.mp hle, hpos, rfl, rfl, ?_⟩
    split at hnewNum
    next heq =>
      cases hnewNum
      rw [heq, Ratio.toRat, div_mul_cancel₀ _ hr.ne_zero]
      exact RoundsHalfEven.natCast _
    · have hrounds := natSafeMath.bankersDivide_rounds (safely_eq_ok.mp hnewNum)
      rw [Nat.cast_mul, ← div_mul_eq_mul_div] at hrounds
      exact hrounds.2

/-! ## The arithmetic as a whole -/

/-- The functions compute what rational arithmetic does, up to the rounding they
declare, and throw where the brands do not allow it. -/
structure ExactUpToRounding (a : NatAmount β) (r left right : Ratio β) : Prop where
  floorMultiplyBy_eq : ∀ b, floorMultiplyBy a r = .ok b ↔
    a.brand = r.denominator.brand ∧ b = ⟨r.numerator.brand, ⌊a.value * r.toRat⌋₊⟩
  ceilMultiplyBy_eq : ∀ b, ceilMultiplyBy a r = .ok b ↔
    a.brand = r.denominator.brand ∧ b = ⟨r.numerator.brand, ⌈a.value * r.toRat⌉₊⟩
  multiplyBy_eq : ∀ b, multiplyBy a r = .ok b ↔
    a.brand = r.denominator.brand ∧ b = ⟨r.numerator.brand, roundHalfEven (a.value * r.toRat)⟩
  floorDivideBy_eq : ∀ b, floorDivideBy a r = .ok b ↔ a.brand = r.numerator.brand ∧
    0 < r.numerator.value ∧ b = ⟨r.denominator.brand, ⌊a.value / r.toRat⌋₊⟩
  ceilDivideBy_eq : ∀ b, ceilDivideBy a r = .ok b ↔ a.brand = r.numerator.brand ∧
    0 < r.numerator.value ∧ b = ⟨r.denominator.brand, ⌈a.value / r.toRat⌉₊⟩
  divideBy_eq : ∀ b, divideBy a r = .ok b ↔ a.brand = r.numerator.brand ∧
    0 < r.numerator.value ∧ b = ⟨r.denominator.brand, roundHalfEven (a.value / r.toRat)⟩
  floorDivideBy_greatest : ∀ b, floorDivideBy a r = .ok b →
    IsGreatest { x : ℕ | x * r.toRat ≤ a.value } b.value
  ceilMultiplyBy_floorDivideBy : ∀ b, floorDivideBy a r = .ok b →
    ∃ c, ceilMultiplyBy b r = .ok c ∧ c.brand = a.brand ∧ c.value ≤ a.value
  invertRatio_eq : ∀ s, invertRatio r = .ok s →
    s.Valid ∧ s.toRat = r.toRat⁻¹ ∧ s.dimension = -r.dimension
  invertRatio_returns : (∃ s, invertRatio r = .ok s) ↔ r.toRat ≠ 0
  oneMinus_eq : ∀ s, oneMinus r = .ok s →
    s.Valid ∧ s.toRat = 1 - r.toRat ∧ s.numerator.brand = r.numerator.brand ∧
      s.denominator.brand = r.denominator.brand
  oneMinus_returns : (∃ s, oneMinus r = .ok s) ↔
    r.numerator.brand = r.denominator.brand ∧ r.toRat ≤ 1
  addRatios_eq : ∀ s, addRatios left right = .ok s →
    s.Valid ∧ s.toRat = left.toRat + right.toRat ∧ s.numerator.brand = left.numerator.brand ∧
      s.denominator.brand = left.denominator.brand
  addRatios_returns : (∃ s, addRatios left right = .ok s) ↔
    left.numerator.brand = right.numerator.brand ∧
      left.denominator.brand = right.denominator.brand
  subtractRatios_eq : ∀ s, subtractRatios left right = .ok s →
    s.Valid ∧ s.toRat = left.toRat - right.toRat ∧ s.numerator.brand = left.numerator.brand ∧
      s.denominator.brand = left.denominator.brand
  subtractRatios_returns : (∃ s, subtractRatios left right = .ok s) ↔
    left.numerator.brand = right.numerator.brand ∧
      left.denominator.brand = right.denominator.brand ∧ right.toRat ≤ left.toRat
  multiplyRatios_eq : ∀ s, multiplyRatios left right = .ok s →
    s.Valid ∧ s.toRat = left.toRat * right.toRat ∧
      s.dimension = left.dimension + right.dimension
  multiplyRatios_returns : (∃ s, multiplyRatios left right = .ok s) ↔
    ∃ numeratorBrand denominatorBrand, left.dimension + right.dimension =
      single numeratorBrand 1 - single denominatorBrand 1
  ratioGTE_eq : ∀ gte, ratioGTE left right = .ok gte →
    left.Comparable right ∧ (gte = true ↔ right.toRat ≤ left.toRat)
  ratioGTE_returns : (∃ gte, ratioGTE left right = .ok gte) ↔
    left.Comparable right

/-- Comparing ratios is where it can go wrong: with a left operand of two brands and
another brand over it on the right, no check is made. -/
theorem exactUpToRounding_iff (a : NatAmount β) {r left right : Ratio β} (hr : r.Valid)
    (hl : left.Valid) (hright : right.Valid) :
    ExactUpToRounding a r left right ↔
      left.numerator.brand = right.numerator.brand ∨
        left.numerator.brand = left.denominator.brand := by
  have hgte : ∀ gte, ratioGTE left right = .ok gte ↔ _ := fun gte => ratioGTE_eq_ok hl hright
  have hreturns : (∃ gte, ratioGTE left right = .ok gte) ↔ checkComparable left right = .ok () := by
    constructor
    · rintro ⟨gte, h⟩
      exact ((hgte gte).mp h).1
    · intro h
      exact ⟨decide (right.toRat ≤ left.toRat), (hgte _).mpr ⟨h, decide_eq_true_iff⟩⟩
  have hcheck : checkComparable left right = .ok () ↔ left.Comparable right ∨
      left.numerator.brand ≠ right.numerator.brand ∧
        left.numerator.brand ≠ left.denominator.brand := checkComparable_eq_ok
  constructor
  · intro h
    by_contra hbrands
    obtain ⟨hnumerators, hleft⟩ := not_or.mp hbrands
    have hcomparable := h.ratioGTE_returns.mp (hreturns.mpr (hcheck.mpr (.inr ⟨hnumerators, hleft⟩)))
    rcases hcomparable with ⟨hsame, -⟩ | ⟨hsingle, -⟩
    · exact hnumerators hsame
    · exact hleft hsingle
  · intro hbrands
    have hcomparable : checkComparable left right = .ok () ↔ left.Comparable right := by
      rw [hcheck]
      constructor
      · rintro (h | ⟨hnumerators, hleft⟩)
        · exact h
        · exact absurd hbrands (not_or.mpr ⟨hnumerators, hleft⟩)
      · exact .inl
    have hmultiply : ∀ {op mode}, DivideOp.Divides op mode → ∀ b, multiplyHelper a r op = .ok b ↔
        a.brand = r.denominator.brand ∧ b = ⟨r.numerator.brand, mode.round (a.value * r.toRat)⟩ := by
      intro op mode hop b
      rw [multiplyHelper_eq_ok hop]
      simp only [hr, true_and]
    exact {
      floorMultiplyBy_eq := hmultiply natSafeMath.floorDivide_divides
      ceilMultiplyBy_eq := hmultiply natSafeMath.ceilDivide_divides
      multiplyBy_eq := hmultiply natSafeMath.bankersDivide_divides
      floorDivideBy_eq := fun _ => divideHelper_eq_ok natSafeMath.floorDivide_divides
      ceilDivideBy_eq := fun _ => divideHelper_eq_ok natSafeMath.ceilDivide_divides
      divideBy_eq := fun _ => divideHelper_eq_ok natSafeMath.bankersDivide_divides
      floorDivideBy_greatest := fun _ => floorDivideBy_greatest hr
      ceilMultiplyBy_floorDivideBy := fun _ => ceilMultiplyBy_floorDivideBy hr
      invertRatio_eq := fun _ => invertRatio_inverts
      invertRatio_returns := invertRatio_returns hr
      oneMinus_eq := fun _ => oneMinus_eq_ok hr
      oneMinus_returns := oneMinus_returns hr
      addRatios_eq := fun _ => addRatios_eq_ok hl hright
      addRatios_returns := addRatios_returns hl hright
      subtractRatios_eq := fun _ => subtractRatios_eq_ok hl hright
      subtractRatios_returns := subtractRatios_returns hl hright
      multiplyRatios_eq := fun _ => multiplyRatios_eq_ok
      multiplyRatios_returns := multiplyRatios_returns hl hright
      ratioGTE_eq := fun gte h =>
        ⟨hcomparable.mp ((hgte gte).mp h).1, ((hgte gte).mp h).2⟩
      ratioGTE_returns := hreturns.trans hcomparable }

/-- A share of BLD in IST against a share of ATOM in USDC: the comparison answers. -/
theorem ratioGTE_answers_incomparable :
    ratioGTE (β := String) ⟨⟨"BLD", 1⟩, ⟨"IST", 2⟩⟩ ⟨⟨"ATOM", 1⟩, ⟨"USDC", 3⟩⟩ = .ok true ∧
      ¬ExactUpToRounding (β := String) ⟨"IST", 5⟩ ⟨⟨"BLD", 1⟩, ⟨"IST", 2⟩⟩
        ⟨⟨"BLD", 1⟩, ⟨"IST", 2⟩⟩ ⟨⟨"ATOM", 1⟩, ⟨"USDC", 3⟩⟩ := by
  constructor
  · decide
  · intro h
    have hcomparable := h.ratioGTE_returns.mp ⟨true, by decide⟩
    simp [Ratio.Comparable] at hcomparable

theorem exactUpToRounding_halves :
    ExactUpToRounding (β := String) ⟨"IST", 5⟩ ⟨⟨"BLD", 1⟩, ⟨"IST", 2⟩⟩ ⟨⟨"BLD", 1⟩, ⟨"IST", 2⟩⟩
      ⟨⟨"BLD", 1⟩, ⟨"USDC", 3⟩⟩ :=
  (exactUpToRounding_iff _ (by unfold Ratio.Valid; decide) (by unfold Ratio.Valid; decide)
    (by unfold Ratio.Valid; decide)).mpr (.inl rfl)

end AgoricSdk.ERTP
