import AgoricSdk.ERTP.AmountMath
import AgoricSdk.ERTP.SafeMath

/-!
Ratios of amounts of two brands, and the amounts of kind `nat` they scale. Amounts of
that kind are the amounts of `AmountMath` whose value is a natural number.
-/

namespace AgoricSdk.ERTP

variable {β κ : Type}

structure NatAmount (β : Type) where
  brand : β
  value : Nat
  deriving DecidableEq

structure Ratio (β : Type) where
  numerator : NatAmount β
  denominator : NatAmount β
  deriving DecidableEq

inductive RatioFault (β : Type) where
  | math (fault : MathFault)
  | brandsShouldMatch (left right : β)
  | infiniteRatio (denominatorBrand : β)
  | mustMatchDenominator (amountBrand denominatorBrand : β)
  | mustMatchNumerator (amountBrand numeratorBrand : β)
  | numeratorBrandsMustMatch (left right : Ratio β)
  | denominatorBrandsMustMatch (left right : Ratio β)
  | noBrandCancels (left right : Ratio β)
  | notSingleBrand (numeratorBrand denominatorBrand : β)
  | aboveOne (numerator denominator : Nat)
  | denominatorBrandsDoNotMatch (left right : Ratio β)
  | righthandBrandsDoNotMatch (left right : Ratio β)
  deriving DecidableEq

abbrev RatioResult (β α : Type) := Except (RatioFault β) α

def safely {α : Type} (result : Except MathFault α) : RatioResult β α :=
  result.mapError .math

section Amounts

variable [DecidableEq β]

namespace NatAmount

def makeEmpty (brand : β) : NatAmount β := { brand, value := 0 }

def isEmpty (amount : NatAmount β) : Bool := amount.value = 0

def checkBrands (leftAmount rightAmount : NatAmount β) : RatioResult β Unit :=
  if leftAmount.brand = rightAmount.brand then .ok ()
  else .error (.brandsShouldMatch leftAmount.brand rightAmount.brand)

def isGTE (leftAmount rightAmount : NatAmount β) : RatioResult β Bool := do
  checkBrands leftAmount rightAmount
  return decide (leftAmount.value ≥ rightAmount.value)

def isEqual (leftAmount rightAmount : NatAmount β) : RatioResult β Bool := do
  checkBrands leftAmount rightAmount
  return decide (leftAmount.value = rightAmount.value)

def add (leftAmount rightAmount : NatAmount β) : RatioResult β (NatAmount β) := do
  checkBrands leftAmount rightAmount
  return { brand := leftAmount.brand, value := leftAmount.value + rightAmount.value }

def subtract (leftAmount rightAmount : NatAmount β) : RatioResult β (NatAmount β) := do
  checkBrands leftAmount rightAmount
  let value ← safely (natSafeMath.subtract leftAmount.value rightAmount.value)
  return { brand := leftAmount.brand, value }

variable {left right amount : NatAmount β}

theorem checkBrands_eq_ok : checkBrands left right = .ok () ↔ left.brand = right.brand := by
  unfold checkBrands
  split <;> simp_all

theorem isGTE_eq_ok {b : Bool} :
    isGTE left right = .ok b ↔ left.brand = right.brand ∧ b = decide (right.value ≤ left.value) := by
  unfold isGTE
  rw [bind_eq_ok]
  constructor
  · rintro ⟨_, hbrand, h⟩
    cases h
    exact ⟨checkBrands_eq_ok.mp hbrand, rfl⟩
  · rintro ⟨hbrand, rfl⟩
    exact ⟨(), checkBrands_eq_ok.mpr hbrand, rfl⟩

theorem add_eq_ok :
    add left right = .ok amount ↔
      left.brand = right.brand ∧ amount = ⟨left.brand, left.value + right.value⟩ := by
  unfold add
  rw [bind_eq_ok]
  constructor
  · rintro ⟨_, hbrand, h⟩
    cases h
    exact ⟨checkBrands_eq_ok.mp hbrand, rfl⟩
  · rintro ⟨hbrand, rfl⟩
    exact ⟨(), checkBrands_eq_ok.mpr hbrand, rfl⟩

end NatAmount

end Amounts

theorem safely_eq_ok {α : Type} {result : Except MathFault α} {a : α} :
    safely (β := β) result = .ok a ↔ result = .ok a :=
  mapError_ok_iff

theorem NatAmount.subtract_eq_ok [DecidableEq β] {left right amount : NatAmount β} :
    subtract left right = .ok amount ↔
      left.brand = right.brand ∧ right.value ≤ left.value ∧
        amount = ⟨left.brand, left.value - right.value⟩ := by
  unfold subtract
  rw [bind_eq_ok]
  constructor
  · rintro ⟨_, hbrand, h⟩
    obtain ⟨value, hvalue, h⟩ := bind_eq_ok.mp h
    obtain ⟨hle, rfl⟩ := natSafeMath.subtract_eq_ok.mp (safely_eq_ok.mp hvalue)
    cases h
    exact ⟨checkBrands_eq_ok.mp hbrand, hle, rfl⟩
  · rintro ⟨hbrand, hle, rfl⟩
    have hvalue := safely_eq_ok (β := β).mpr (natSafeMath.subtract_eq_ok.mpr ⟨hle, rfl⟩)
    exact ⟨(), checkBrands_eq_ok.mpr hbrand, bind_eq_ok.mpr ⟨_, hvalue, rfl⟩⟩

/-! ## Amounts of kind `nat` -/

section Kind

def NatAmount.toAmount (κ : Type) (amount : NatAmount β) : Amount β κ :=
  { brand := amount.brand, value := .bigint amount.value }

variable [DecidableEq β] (lib : StoreLib κ) (left right : NatAmount β)

namespace NatAmount

theorem checkLRAndGetHelpers_toAmount (h : left.brand = right.brand) :
    checkLRAndGetHelpers lib (left.toAmount κ) (right.toAmount κ) none = some .nat := by
  simp [checkLRAndGetHelpers, optionalBrandCheck, assertValueGetAssetKind, toAmount, h]

theorem checkLRAndGetHelpers_toAmount_none (h : left.brand ≠ right.brand) :
    checkLRAndGetHelpers lib (left.toAmount κ) (right.toAmount κ) none = none := by
  simp [checkLRAndGetHelpers, optionalBrandCheck, toAmount, h]

theorem add_toAmount :
    AmountMath.add lib (left.toAmount κ) (right.toAmount κ) none =
      (left.add right).toOption.map (toAmount κ) := by
  by_cases h : left.brand = right.brand
  · rw [AmountMath.add, checkLRAndGetHelpers_toAmount lib _ _ h, add_eq_ok.mpr ⟨h, rfl⟩]
    simp [coerceLR, helpers, toAmount, natMathHelpers, Except.toOption]
  · rw [AmountMath.add, checkLRAndGetHelpers_toAmount_none lib _ _ h]
    simp [add, checkBrands, h, Except.toOption, bind, Except.bind]

theorem subtract_toAmount :
    AmountMath.subtract lib (left.toAmount κ) (right.toAmount κ) none =
      (left.subtract right).toOption.map (toAmount κ) := by
  by_cases h : left.brand = right.brand
  · rw [AmountMath.subtract, checkLRAndGetHelpers_toAmount lib _ _ h]
    by_cases hle : right.value ≤ left.value
    · rw [subtract_eq_ok.mpr ⟨h, hle, rfl⟩]
      simp [coerceLR, helpers, toAmount, natMathHelpers, Except.toOption, hle]
    · simp [coerceLR, helpers, toAmount, natMathHelpers, Except.toOption, hle, subtract,
        checkBrands, h, bind, Except.bind, safely, natSafeMath.subtract, Except.mapError]
  · rw [AmountMath.subtract, checkLRAndGetHelpers_toAmount_none lib _ _ h]
    simp [subtract, checkBrands, h, Except.toOption, bind, Except.bind]

theorem isGTE_toAmount :
    AmountMath.isGTE lib (left.toAmount κ) (right.toAmount κ) none =
      (left.isGTE right).toOption := by
  by_cases h : left.brand = right.brand
  · rw [AmountMath.isGTE, checkLRAndGetHelpers_toAmount lib _ _ h, isGTE_eq_ok.mpr ⟨h, rfl⟩]
    simp [coerceLR, helpers, toAmount, natMathHelpers, Except.toOption]
  · rw [AmountMath.isGTE, checkLRAndGetHelpers_toAmount_none lib _ _ h]
    simp [isGTE, checkBrands, h, Except.toOption, bind, Except.bind]

end NatAmount

end Kind

/-! ## The functions -/

section Functions

variable [DecidableEq β]

def makeRatio (numerator : Nat) (numeratorBrand : β) (denominator : Nat) (denominatorBrand : β) :
    RatioResult β (Ratio β) :=
  if denominator > 0 then
    .ok ⟨⟨numeratorBrand, numerator⟩, ⟨denominatorBrand, denominator⟩⟩
  else .error (.infiniteRatio denominatorBrand)

def makeRatioFromAmounts (numeratorAmount denominatorAmount : NatAmount β) :
    RatioResult β (Ratio β) :=
  makeRatio numeratorAmount.value numeratorAmount.brand denominatorAmount.value
    denominatorAmount.brand

def multiplyHelper (amount : NatAmount β) (ratio : Ratio β) (divideOp : DivideOp) :
    RatioResult β (NatAmount β) := do
  if amount.brand = ratio.denominator.brand then
    let value ← safely (divideOp (natSafeMath.multiply amount.value ratio.numerator.value)
      ratio.denominator.value)
    return { brand := ratio.numerator.brand, value }
  else throw (.mustMatchDenominator amount.brand ratio.denominator.brand)

def floorMultiplyBy (amount : NatAmount β) (ratio : Ratio β) : RatioResult β (NatAmount β) :=
  multiplyHelper amount ratio natSafeMath.floorDivide

def ceilMultiplyBy (amount : NatAmount β) (ratio : Ratio β) : RatioResult β (NatAmount β) :=
  multiplyHelper amount ratio natSafeMath.ceilDivide

def multiplyBy (amount : NatAmount β) (ratio : Ratio β) : RatioResult β (NatAmount β) :=
  multiplyHelper amount ratio natSafeMath.bankersDivide

def divideHelper (amount : NatAmount β) (ratio : Ratio β) (divideOp : DivideOp) :
    RatioResult β (NatAmount β) := do
  if amount.brand = ratio.numerator.brand then
    let value ← safely (divideOp (natSafeMath.multiply amount.value ratio.denominator.value)
      ratio.numerator.value)
    return { brand := ratio.denominator.brand, value }
  else throw (.mustMatchNumerator amount.brand ratio.numerator.brand)

def floorDivideBy (amount : NatAmount β) (ratio : Ratio β) : RatioResult β (NatAmount β) :=
  divideHelper amount ratio natSafeMath.floorDivide

def ceilDivideBy (amount : NatAmount β) (ratio : Ratio β) : RatioResult β (NatAmount β) :=
  divideHelper amount ratio natSafeMath.ceilDivide

def divideBy (amount : NatAmount β) (ratio : Ratio β) : RatioResult β (NatAmount β) :=
  divideHelper amount ratio natSafeMath.bankersDivide

def invertRatio (ratio : Ratio β) : RatioResult β (Ratio β) :=
  makeRatio ratio.denominator.value ratio.denominator.brand ratio.numerator.value
    ratio.numerator.brand

/-- The checks that `addRatios` and `subtractRatios` make alike. -/
def checkSameBrands (left right : Ratio β) : RatioResult β Unit :=
  if left.numerator.brand ≠ right.numerator.brand then
    .error (.numeratorBrandsMustMatch left right)
  else if left.denominator.brand ≠ right.denominator.brand then
    .error (.denominatorBrandsMustMatch left right)
  else .ok ()

def addRatios (left right : Ratio β) : RatioResult β (Ratio β) := do
  checkSameBrands left right
  makeRatio
    (natSafeMath.add
      (natSafeMath.multiply left.numerator.value right.denominator.value)
      (natSafeMath.multiply left.denominator.value right.numerator.value))
    left.numerator.brand
    (natSafeMath.multiply left.denominator.value right.denominator.value)
    left.denominator.brand

def subtractRatios (left right : Ratio β) : RatioResult β (Ratio β) := do
  checkSameBrands left right
  let numerator ← safely (natSafeMath.subtract
    (natSafeMath.multiply left.numerator.value right.denominator.value)
    (natSafeMath.multiply left.denominator.value right.numerator.value))
  makeRatio numerator left.numerator.brand
    (natSafeMath.multiply left.denominator.value right.denominator.value)
    left.denominator.brand

/-- Prefers results that have the same brand as the left operand. -/
def getRemainingBrands (left right : Ratio β) : RatioResult β (β × β) :=
  if right.numerator.brand = right.denominator.brand then
    .ok (left.numerator.brand, left.denominator.brand)
  else if right.numerator.brand = left.denominator.brand then
    .ok (left.numerator.brand, right.denominator.brand)
  else if left.numerator.brand = right.denominator.brand then
    .ok (right.numerator.brand, left.denominator.brand)
  else if left.numerator.brand = left.denominator.brand then
    .ok (right.numerator.brand, right.denominator.brand)
  else .error (.noBrandCancels left right)

def multiplyRatios (left right : Ratio β) : RatioResult β (Ratio β) := do
  let (numeratorBrand, denominatorBrand) ← getRemainingBrands left right
  makeRatio
    (natSafeMath.multiply left.numerator.value right.numerator.value)
    numeratorBrand
    (natSafeMath.multiply left.denominator.value right.denominator.value)
    denominatorBrand

def oneMinus (ratio : Ratio β) : RatioResult β (Ratio β) :=
  if ratio.numerator.brand ≠ ratio.denominator.brand then
    .error (.notSingleBrand ratio.numerator.brand ratio.denominator.brand)
  else if ratio.denominator.value < ratio.numerator.value then
    .error (.aboveOne ratio.numerator.value ratio.denominator.value)
  else do
    let numerator ← safely (natSafeMath.subtract ratio.denominator.value ratio.numerator.value)
    makeRatio numerator ratio.numerator.brand ratio.denominator.value ratio.numerator.brand

def checkComparable (left right : Ratio β) : RatioResult β Unit :=
  if left.numerator.brand = right.numerator.brand then
    if left.denominator.brand = right.denominator.brand then .ok ()
    else .error (.denominatorBrandsDoNotMatch left right)
  else if left.numerator.brand = left.denominator.brand then
    if right.numerator.brand = right.denominator.brand then .ok ()
    else .error (.righthandBrandsDoNotMatch left right)
  else .ok ()

def ratioGTE (left right : Ratio β) : RatioResult β Bool := do
  checkComparable left right
  return natSafeMath.isGTE
    (natSafeMath.multiply left.numerator.value right.denominator.value)
    (natSafeMath.multiply right.numerator.value left.denominator.value)

def quantize (ratio : Ratio β) (newDen : Nat) : RatioResult β (Ratio β) := do
  let oldDen := ratio.denominator.value
  let oldNum := ratio.numerator.value
  if newDen > oldDen then return ratio
  let newNum ← (if newDen = oldDen then pure oldNum
    else safely (natSafeMath.bankersDivide (oldNum * newDen) oldDen))
  makeRatio newNum ratio.numerator.brand newDen ratio.denominator.brand

end Functions

end AgoricSdk.ERTP
