import Mathlib.Algebra.Order.Floor.Semifield
import Mathlib.Data.Rat.Floor
import AgoricSdk.Lib.Rounding
import AgoricSdk.Lib.Throwing

/-!
Arithmetic on natural numbers that throws where the result would not be one, and its
three divisions: each is the quotient of the rationals, rounded in its own way.
-/

namespace AgoricSdk.ERTP

inductive MathFault where
  /-- `Nat` got a negative number. -/
  | negative
  | divisionByZero
  deriving DecidableEq

/-- A `NatOp` that divides. -/
abbrev DivideOp := Nat → Nat → Except MathFault Nat

namespace natSafeMath

def add (x y : Nat) : Nat := x + y

def subtract (x y : Nat) : Except MathFault Nat :=
  if y ≤ x then .ok (x - y) else .error .negative

def multiply (x y : Nat) : Nat := x * y

def floorDivide : DivideOp := fun x y =>
  if y = 0 then .error .divisionByZero else .ok (x / y)

def ceilDivide : DivideOp := fun x y =>
  -- `Nat(x) + y - 1n` is checked before the division.
  if x + y = 0 then .error .negative
  else if y = 0 then .error .divisionByZero
  else .ok ((x + y - 1) / y)

def bankersDivide : DivideOp := fun a b =>
  if b = 0 then .error .divisionByZero
  else
    let div := a / b
    let rem := a % b
    if rem * 2 > b then .ok (div + 1)
    else if rem * 2 = b then
      if div % 2 = 1 then .ok (div + 1) else .ok div
    else .ok div

def isGTE (x y : Nat) : Bool := decide (x ≥ y)

end natSafeMath

/-- The operation divides as rationals do and rounds; it throws on no denominator but 0. -/
def DivideOp.Divides (divideOp : DivideOp) (mode : RoundingMode) : Prop :=
  ∀ x y n, divideOp x y = .ok n ↔ 0 < y ∧ n = mode.round ((x : ℚ) / y)

namespace natSafeMath

theorem subtract_eq_ok {x y n : Nat} : subtract x y = .ok n ↔ y ≤ x ∧ n = x - y := by
  unfold subtract
  split
  · simp_all [eq_comm]
  · simp_all

theorem floorDivide_divides : DivideOp.Divides floorDivide .down := by
  intro x y n
  unfold floorDivide RoundingMode.round
  split
  · simp_all
  · rw [Nat.floor_div_eq_div]
    simp_all [Nat.pos_iff_ne_zero, eq_comm]

theorem ceil_div (x : Nat) {y : Nat} (hy : 0 < y) : ⌈(x : ℚ) / y⌉₊ = (x + y - 1) / y := by
  have hyq : (0 : ℚ) < y := by exact_mod_cast hy
  apply le_antisymm
  · rw [Nat.ceil_le, div_le_iff₀ hyq]
    have hmod := Nat.div_add_mod (x + y - 1) y
    have hlt := Nat.mod_lt (x + y - 1) hy
    have hle : x ≤ (x + y - 1) / y * y := by
      rw [Nat.mul_comm]
      omega
    exact_mod_cast hle
  · rw [← Nat.lt_succ_iff, Nat.div_lt_iff_lt_mul hy]
    have hceil := Nat.le_ceil ((x : ℚ) / y)
    rw [div_le_iff₀ hyq] at hceil
    have hx : x ≤ ⌈(x : ℚ) / y⌉₊ * y := by exact_mod_cast hceil
    rw [Nat.succ_mul]
    omega

theorem ceilDivide_divides : DivideOp.Divides ceilDivide .up := by
  intro x y n
  unfold ceilDivide RoundingMode.round
  split
  · simp
    omega
  · split
    · simp_all
    · have hy : 0 < y := by omega
      simp [hy, ceil_div x hy, eq_comm]

theorem bankersDivide_rounds {a b n : Nat} (h : bankersDivide a b = .ok n) :
    0 < b ∧ RoundsHalfEven ((a : ℚ) / b) n := by
  unfold bankersDivide at h
  split at h
  · cases h
  next hb =>
    have hpos : 0 < b := Nat.pos_of_ne_zero hb
    have hdiv : a / b * b + a % b = a := Nat.div_add_mod' a b
    have hrem : a % b < b := Nat.mod_lt a hpos
    have hsucc : (a / b + 1) * b = a / b * b + b := Nat.succ_mul ..
    apply And.intro hpos
    rw [RoundsHalfEven.div_iff hpos, Nat.even_iff]
    dsimp only at h
    split at h
    · cases h
      rw [hsucc]
      omega
    · split at h
      · split at h
        · cases h
          rw [hsucc]
          omega
        · cases h
          omega
      · cases h
        omega

theorem bankersDivide_returns (a : Nat) {b : Nat} (hb : 0 < b) :
    ∃ n, bankersDivide a b = .ok n := by
  unfold bankersDivide
  rw [if_neg hb.ne']
  dsimp only
  split
  · exact ⟨_, rfl⟩
  · split
    · split <;> exact ⟨_, rfl⟩
    · exact ⟨_, rfl⟩

theorem bankersDivide_divides : DivideOp.Divides bankersDivide .halfEven := by
  intro x y n
  have hnonneg : (0 : ℚ) ≤ (x : ℚ) / y := by positivity
  constructor
  · intro h
    obtain ⟨hy, hrounds⟩ := bankersDivide_rounds h
    exact ⟨hy, hrounds.eq_roundHalfEven hnonneg⟩
  · rintro ⟨hy, rfl⟩
    obtain ⟨n, hn⟩ := bankersDivide_returns x hy
    rw [hn, (bankersDivide_rounds hn).2.eq_roundHalfEven hnonneg]
    rfl

end natSafeMath

end AgoricSdk.ERTP
