import AgoricSdk.Lib.BinaryFloat

/-!
JavaScript numbers, as far as the timer computes with them: what becomes of an integer of
any size, and of differences and quotients of such numbers.
-/

namespace AgoricSdk.Timer

def binary64 : BinaryFormat where
  precision := 53
  minPlace := -1074
  one_le_precision := by decide
  fractional := by decide

/-- From here on a magnitude is infinite. -/
def overflow : ℚ := 2 ^ 1024

theorem lt_overflow : (2 : ℚ) ^ 53 < overflow := pow_lt_pow_right₀ one_lt_two (by decide)

/-- The sign of zero is not kept: no operation here tells the zeros apart. -/
inductive Number where
  | nan
  | infinity (negative : Bool)
  | finite (value : ℚ)
  deriving DecidableEq

namespace Number

def ofRat (q : ℚ) : Number :=
  let r := binary64.round |q|
  if overflow ≤ r then infinity (q < 0) else finite (if q < 0 then -r else r)

def ofBigInt (n : ℤ) : Number := ofRat n

def sub : Number → Number → Number
  | nan, _ => nan
  | _, nan => nan
  | finite a, finite b => ofRat (a - b)
  | infinity s, finite _ => infinity s
  | finite _, infinity s => infinity !s
  | infinity s, infinity t => if s = t then nan else infinity s

def div : Number → Number → Number
  | nan, _ => nan
  | _, nan => nan
  | finite a, finite b =>
    if b = 0 then if a = 0 then nan else infinity (a < 0) else ofRat (a / b)
  | infinity s, finite b => infinity (s ^^ decide (b < 0))
  | finite _, infinity _ => finite 0
  | infinity _, infinity _ => nan

/-- `Math.floor`. -/
def floor : Number → Number
  | finite q => finite ⌊q⌋
  | x => x

/-- `BigInt(x)`, which throws a `RangeError` unless `x` is an integer. -/
def toBigInt : Number → Option ℤ
  | finite q => if q.den = 1 then some q.num else none
  | _ => none

/-- How a sort takes what its comparison returns. -/
def isPositive : Number → Bool
  | finite q => 0 < q
  | infinity negative => !negative
  | nan => false

theorem ofRat_of_le {q : ℚ} (hq : 0 < q) (hle : q ≤ 2 ^ 53) :
    ofRat q = finite (binary64.round q) := by
  have hround : binary64.round q ≤ (2 ^ 53 : ℕ) := by
    apply BinaryFormat.round_le_natCast hq le_rfl
    exact_mod_cast hle
  have hlt : ¬ overflow ≤ binary64.round q := by
    have hpow := lt_overflow
    push_cast at hround
    linarith
  simp only [ofRat, abs_of_pos hq, hlt, if_false, not_lt_of_gt hq]

theorem ofRat_zero : ofRat 0 = finite 0 := by
  have hlt : ¬ overflow ≤ 0 := not_le_of_gt (lt_overflow.trans' (by norm_num))
  simp [ofRat, BinaryFormat.round_zero, hlt]

theorem ofBigInt_natCast {n : ℕ} (hn : n ≤ 2 ^ 53) : ofBigInt n = finite n := by
  rcases Nat.eq_zero_or_pos n with rfl | hpos
  · exact ofRat_zero
  · rw [ofBigInt, Int.cast_natCast, ofRat_of_le (Nat.cast_pos.mpr hpos) (by exact_mod_cast hn),
      BinaryFormat.round_natCast hn]

theorem ofBigInt_large {n : ℕ} (hn : 2 ^ 53 < n) :
    ofBigInt n = infinity false ∨ ∃ m : ℕ, 2 ^ 53 ≤ m ∧ ofBigInt n = finite m := by
  have hpos : (0 : ℚ) < n := Nat.cast_pos.mpr (by omega)
  have hplace : 0 ≤ binary64.place n := by
    have hlog : (53 : ℤ) ≤ Int.log 2 (n : ℚ) := by
      apply (Int.zpow_le_iff_le_log one_lt_two hpos).mp
      have hle : ((2 ^ 53 : ℕ) : ℚ) ≤ n := Nat.cast_le.mpr hn.le
      exact_mod_cast hle
    have hprecision : (binary64.precision : ℤ) = 53 := rfl
    unfold BinaryFormat.place
    omega
  obtain ⟨k, hk⟩ := Int.eq_ofNat_of_zero_le hplace
  have hround : binary64.round n = (roundHalfEven ((n : ℚ) / 2 ^ (k : ℤ)) * 2 ^ k : ℕ) := by
    rw [BinaryFormat.round, hk, Nat.cast_mul, Nat.cast_pow, Nat.cast_ofNat, zpow_natCast]
  have hlarge : ((2 ^ 53 : ℕ) : ℚ) ≤ binary64.round n :=
    BinaryFormat.natCast_le_round hpos le_rfl (Nat.cast_le.mpr hn.le)
  rw [hround] at hlarge
  simp only [ofBigInt, ofRat, Int.cast_natCast, abs_of_pos hpos, hround]
  split
  · exact .inl (by simp)
  · exact .inr ⟨_, Nat.cast_le.mp hlarge, by simp⟩

theorem ofBigInt_isPositive (n : ℤ) : (ofBigInt n).isPositive = true ↔ 0 < n := by
  rcases lt_trichotomy n 0 with hneg | rfl | hpos
  · have hneg' : (n : ℚ) < 0 := Int.cast_lt_zero.mpr hneg
    have hround := BinaryFormat.round_nonneg (F := binary64) |(n : ℚ)|
    simp only [ofBigInt, ofRat, hneg', decide_true, if_true]
    split
    · simp [isPositive, hneg.le]
    · simp only [isPositive, decide_eq_true_eq, Left.neg_pos_iff]
      exact ⟨fun h => absurd h hround.not_gt, fun h => absurd h hneg.not_gt⟩
  · rw [ofBigInt, Int.cast_zero, ofRat_zero]
    simp [isPositive]
  · have hpos' : (0 : ℚ) < n := Int.cast_pos.mpr hpos
    simp only [ofBigInt, ofRat, not_lt_of_gt hpos', decide_false, if_false]
    split
    · simp [isPositive, hpos]
    · have hone : ((1 : ℕ) : ℚ) ≤ binary64.round |(n : ℚ)| := by
        apply BinaryFormat.natCast_le_round (abs_pos.mpr hpos'.ne') (by decide)
        rw [abs_of_pos hpos', Nat.cast_one]
        exact_mod_cast hpos
      have hround : 0 < binary64.round |(n : ℚ)| := by
        rw [Nat.cast_one] at hone
        linarith
      simp [isPositive, hpos, hround]

end Number

end AgoricSdk.Timer
