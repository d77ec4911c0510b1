import AgoricSdk.ERTP.SafeMath

/-!
The constant product curve: prices of a trade against two reserves, and the shares for
liquidity added and removed. Every quotient is of natural numbers; what each function
returns is known by the products it lies between.
-/

namespace AgoricSdk.Zoe

open ERTP natSafeMath

inductive CurveFault where
  | math (fault : MathFault)
  | inputValueNotPositive (inputValue : Nat)
  | inputReserveNotPositive (inputReserve : Nat)
  | outputReserveNotPositive (outputReserve : Nat)
  | outputReserveNotGreater (outputReserve outputValue : Nat)
  deriving DecidableEq

abbrev CurveResult (α : Type) := Except CurveFault α

def curveMath {α : Type} (result : Except MathFault α) : CurveResult α := result.mapError .math

def curveRequire (condition : Bool) (fault : CurveFault) : CurveResult Unit :=
  if condition then .ok () else .error fault

def BASIS_POINTS : Nat := 10000

def getInputPrice (inputValue inputReserve outputReserve feeBasisPoints : Nat) :
    CurveResult Nat := do
  curveRequire (0 < inputValue) (.inputValueNotPositive inputValue)
  curveRequire (0 < inputReserve) (.inputReserveNotPositive inputReserve)
  curveRequire (0 < outputReserve) (.outputReserveNotPositive outputReserve)
  let oneMinusFeeScaled ← curveMath (subtract BASIS_POINTS feeBasisPoints)
  let inputWithFee := multiply inputValue oneMinusFeeScaled
  let numerator := multiply inputWithFee outputReserve
  let denominator := add (multiply inputReserve BASIS_POINTS) inputWithFee
  curveMath (floorDivide numerator denominator)

def getOutputPrice (outputValue inputReserve outputReserve feeBasisPoints : Nat) :
    CurveResult Nat := do
  curveRequire (0 < inputReserve) (.inputReserveNotPositive inputReserve)
  curveRequire (0 < outputReserve) (.outputReserveNotPositive outputReserve)
  curveRequire (outputValue < outputReserve) (.outputReserveNotGreater outputReserve outputValue)
  let oneMinusFeeScaled ← curveMath (subtract BASIS_POINTS feeBasisPoints)
  let numerator := multiply (multiply outputValue inputReserve) BASIS_POINTS
  let remaining ← curveMath (subtract outputReserve outputValue)
  let denominator := multiply remaining oneMinusFeeScaled
  let quotient ← curveMath (floorDivide numerator denominator)
  return add quotient 1

def calcLiqValueToMint (liqTokenSupply inputValue inputReserve : Nat) : CurveResult Nat :=
  if liqTokenSupply = 0 then .ok inputValue
  else curveMath (floorDivide (multiply inputValue liqTokenSupply) inputReserve)

def calcSecondaryRequired (centralIn centralPool secondaryPool secondaryIn : Nat) :
    CurveResult Nat :=
  if centralPool = 0 ∨ secondaryPool = 0 then .ok secondaryIn
  else do
    let scaledSecondary ← curveMath (floorDivide (multiply centralIn secondaryPool) centralPool)
    let exact := multiply centralIn secondaryPool = multiply scaledSecondary centralPool
    return if exact then scaledSecondary else 1 + scaledSecondary

def calcValueToRemove (liqTokenSupply poolValue liquidityValueIn : Nat) : CurveResult Nat :=
  curveMath (floorDivide (multiply liquidityValueIn poolValue) liqTokenSupply)

/-! ## What the functions return -/

section Values

variable {d p q x y f c l s m out : Nat}

theorem curveMath_eq_ok {α : Type} {result : Except MathFault α} {a : α} :
    curveMath result = .ok a ↔ result = .ok a :=
  mapError_ok_iff

theorem curveRequire_eq_ok {condition : Prop} [Decidable condition] {fault : CurveFault} :
    curveRequire condition fault = .ok () ↔ condition := by
  unfold curveRequire
  split <;> simp_all

theorem floorDivide_eq_ok {a b n : Nat} : floorDivide a b = .ok n ↔ 0 < b ∧ n = a / b := by
  unfold floorDivide
  split <;> simp_all [Nat.pos_iff_ne_zero, eq_comm]

theorem curveMath_floorDivide (a : Nat) {b : Nat} (h : 0 < b) :
    curveMath (floorDivide a b) = .ok (a / b) :=
  curveMath_eq_ok.mpr (floorDivide_eq_ok.mpr ⟨h, rfl⟩)

theorem getInputPrice_eq_ok :
    getInputPrice d x y f = .ok out ↔
      0 < d ∧ 0 < x ∧ 0 < y ∧ f ≤ 10000 ∧
        out = d * (10000 - f) * y / (x * 10000 + d * (10000 - f)) := by
  unfold getInputPrice
  constructor
  · intro h
    obtain ⟨_, hd, h⟩ := bind_eq_ok.mp h
    obtain ⟨_, hx, h⟩ := bind_eq_ok.mp h
    obtain ⟨_, hy, h⟩ := bind_eq_ok.mp h
    obtain ⟨_, hfee, h⟩ := bind_eq_ok.mp h
    obtain ⟨hle, rfl⟩ := subtract_eq_ok.mp (curveMath_eq_ok.mp hfee)
    obtain ⟨-, rfl⟩ := floorDivide_eq_ok.mp (curveMath_eq_ok.mp h)
    exact ⟨curveRequire_eq_ok.mp hd, curveRequire_eq_ok.mp hx, curveRequire_eq_ok.mp hy, hle, rfl⟩
  · rintro ⟨hd, hx, hy, hle, rfl⟩
    have hfee := curveMath_eq_ok.mpr (subtract_eq_ok.mpr ⟨hle, rfl⟩)
    have hpos : 0 < x * 10000 + d * (10000 - f) := by omega
    exact bind_eq_ok.mpr ⟨(), curveRequire_eq_ok.mpr hd, bind_eq_ok.mpr
      ⟨(), curveRequire_eq_ok.mpr hx, bind_eq_ok.mpr
        ⟨(), curveRequire_eq_ok.mpr hy, bind_eq_ok.mpr ⟨_, hfee, curveMath_floorDivide _ hpos⟩⟩⟩⟩

theorem getOutputPrice_eq_ok :
    getOutputPrice q x y f = .ok p ↔
      0 < x ∧ q < y ∧ f < 10000 ∧ p = q * x * 10000 / ((y - q) * (10000 - f)) + 1 := by
  unfold getOutputPrice
  constructor
  · intro h
    obtain ⟨_, hx, h⟩ := bind_eq_ok.mp h
    obtain ⟨_, -, h⟩ := bind_eq_ok.mp h
    obtain ⟨_, hq, h⟩ := bind_eq_ok.mp h
    obtain ⟨_, hfee, h⟩ := bind_eq_ok.mp h
    obtain ⟨hle, rfl⟩ := subtract_eq_ok.mp (curveMath_eq_ok.mp hfee)
    obtain ⟨_, hremaining, h⟩ := bind_eq_ok.mp h
    obtain ⟨-, rfl⟩ := subtract_eq_ok.mp (curveMath_eq_ok.mp hremaining)
    obtain ⟨_, hquotient, h⟩ := bind_eq_ok.mp h
    obtain ⟨hpos, rfl⟩ := floorDivide_eq_ok.mp (curveMath_eq_ok.mp hquotient)
    cases h
    have hfee : 0 < BASIS_POINTS - f := Nat.pos_of_mul_pos_left hpos
    exact ⟨curveRequire_eq_ok.mp hx, curveRequire_eq_ok.mp hq, Nat.lt_of_sub_pos hfee, rfl⟩
  · rintro ⟨hx, hq, hf, rfl⟩
    have hfee := curveMath_eq_ok.mpr (subtract_eq_ok.mpr ⟨hf.le, rfl⟩)
    have hremaining := curveMath_eq_ok.mpr (subtract_eq_ok.mpr ⟨hq.le, rfl⟩)
    have hpos : 0 < (y - q) * (10000 - f) := Nat.mul_pos (by omega) (by omega)
    exact bind_eq_ok.mpr ⟨(), curveRequire_eq_ok.mpr hx, bind_eq_ok.mpr
      ⟨(), curveRequire_eq_ok.mpr (Nat.zero_lt_of_lt hq), bind_eq_ok.mpr
        ⟨(), curveRequire_eq_ok.mpr hq, bind_eq_ok.mpr
          ⟨_, hfee, bind_eq_ok.mpr ⟨_, hremaining, bind_eq_ok.mpr
            ⟨_, curveMath_floorDivide _ hpos, rfl⟩⟩⟩⟩⟩⟩

theorem getInputPrice_bound (h : getInputPrice d x y f = .ok out) :
    out < y ∧ out * x * 10000 ≤ d * (10000 - f) * (y - out) := by
  obtain ⟨hd, hx, hy, -, rfl⟩ := getInputPrice_eq_ok.mp h
  generalize 10000 - f = F
  have hpos : 0 < x * 10000 + d * F := by omega
  have hlt : d * F * y / (x * 10000 + d * F) < y := by
    rw [Nat.div_lt_iff_lt_mul hpos]
    have hproduct : 0 < y * (x * 10000) := by positivity
    linarith
  apply And.intro hlt
  have hle := Nat.div_mul_le_self (d * F * y) (x * 10000 + d * F)
  generalize d * F * y / (x * 10000 + d * F) = out at hlt hle
  obtain ⟨rest, rfl⟩ := Nat.exists_eq_add_of_le hlt.le
  rw [Nat.add_sub_cancel_left]
  linarith

theorem getInputPrice_product (h : getInputPrice d x y f = .ok out) :
    out < y ∧ x * y ≤ (x + d) * (y - out) := by
  obtain ⟨hlt, hbound⟩ := getInputPrice_bound h
  apply And.intro hlt
  obtain ⟨rest, rfl⟩ := Nat.exists_eq_add_of_le hlt.le
  rw [Nat.add_sub_cancel_left] at hbound ⊢
  have hfee : d * (10000 - f) * rest ≤ d * 10000 * rest := by
    apply Nat.mul_le_mul_right
    apply Nat.mul_le_mul_left
    exact Nat.sub_le ..
  linarith

theorem getOutputPrice_bound (h : getOutputPrice q x y f = .ok p) :
    q * x * 10000 < p * ((y - q) * (10000 - f)) := by
  obtain ⟨-, hq, hf, rfl⟩ := getOutputPrice_eq_ok.mp h
  have hpos : 0 < (y - q) * (10000 - f) := Nat.mul_pos (by omega) (by omega)
  exact Nat.lt_mul_of_div_lt (Nat.lt_succ_self _) hpos

theorem getOutputPrice_product (h : getOutputPrice q x y f = .ok p) :
    q < y ∧ x * y ≤ (x + p) * (y - q) := by
  have hbound := getOutputPrice_bound h
  obtain ⟨-, hq, -, -⟩ := getOutputPrice_eq_ok.mp h
  apply And.intro hq
  obtain ⟨rest, rfl⟩ := Nat.exists_eq_add_of_le hq.le
  rw [Nat.add_sub_cancel_left] at hbound ⊢
  have hfee : p * (rest * (10000 - f)) ≤ p * (rest * 10000) := by
    apply Nat.mul_le_mul_left
    apply Nat.mul_le_mul_left
    exact Nat.sub_le ..
  linarith

theorem getInputPrice_getOutputPrice (h : getOutputPrice q x y f = .ok p) :
    ∃ out, getInputPrice p x y f = .ok out ∧ q ≤ out := by
  have hbound := getOutputPrice_bound h
  obtain ⟨hx, hq, hf, hp⟩ := getOutputPrice_eq_ok.mp h
  have hp0 : 0 < p := hp ▸ Nat.succ_pos _
  refine ⟨_, getInputPrice_eq_ok.mpr ⟨hp0, hx, by omega, hf.le, rfl⟩, ?_⟩
  have hpos : 0 < x * 10000 + p * (10000 - f) := by omega
  rw [Nat.le_div_iff_mul_le hpos]
  obtain ⟨rest, rfl⟩ := Nat.exists_eq_add_of_le hq.le
  rw [Nat.add_sub_cancel_left] at hbound
  linarith

/-- The price of what an input bought is the input or less, but one more where the
output came out without rounding. -/
theorem getOutputPrice_getInputPrice (hf : f < 10000) (h : getInputPrice d x y f = .ok q) :
    ∃ p, getOutputPrice q x y f = .ok p ∧ p ≤ d + 1 ∧
      (d < p ↔ x * 10000 + d * (10000 - f) ∣ d * (10000 - f) * y) := by
  obtain ⟨hlt, hbound⟩ := getInputPrice_bound h
  obtain ⟨hd, hx, hy, -, hq⟩ := getInputPrice_eq_ok.mp h
  have hpos : 0 < (y - q) * (10000 - f) := Nat.mul_pos (by omega) (by omega)
  refine ⟨_, getOutputPrice_eq_ok.mpr ⟨hx, hlt, hf, rfl⟩, ?_, ?_⟩
  · apply Nat.succ_le_succ
    rw [← Nat.lt_succ_iff, Nat.div_lt_iff_lt_mul hpos]
    calc
      q * x * 10000 ≤ d * ((y - q) * (10000 - f)) := by linarith
      _ < (d + 1) * ((y - q) * (10000 - f)) := Nat.mul_lt_mul_of_pos_right d.lt_succ_self hpos
  · rw [Nat.lt_succ_iff, Nat.le_div_iff_mul_le hpos, Nat.dvd_iff_div_mul_eq, ← hq]
    obtain ⟨rest, rfl⟩ := Nat.exists_eq_add_of_le hlt.le
    rw [Nat.add_sub_cancel_left] at hbound ⊢
    constructor
    · intro hle
      apply le_antisymm
      · linarith
      · linarith
    · intro heq
      linarith

end Values

end AgoricSdk.Zoe
