import AgoricSdk.Lib.Rounding
import Mathlib.Data.Int.Log

/-!
Binary floating-point numbers as rationals. A positive quantity is kept as a multiple of
its last place, a power of two that leaves `precision` bits, and is rounded to the
nearest such multiple, ties to even.
-/

structure BinaryFormat where
  precision : ℕ
  minPlace : ℤ
  one_le_precision : 1 ≤ precision
  fractional : minPlace + precision ≤ 0

namespace BinaryFormat

variable (F : BinaryFormat)

/-- The exponent of the last place kept. -/
def place (q : ℚ) : ℤ := max (Int.log 2 q + 1 - F.precision) F.minPlace

def round (q : ℚ) : ℚ := roundHalfEven (q / 2 ^ F.place q) * 2 ^ F.place q

variable {F} {q : ℚ}

theorem two_zpow_pos (e : ℤ) : (0 : ℚ) < 2 ^ e := zpow_pos two_pos e

theorem rounds (hq : 0 ≤ q) :
    RoundsHalfEven (q / 2 ^ F.place q) (roundHalfEven (q / 2 ^ F.place q)) :=
  roundsHalfEven_roundHalfEven (div_nonneg hq (two_zpow_pos _).le)

theorem round_nonneg (q : ℚ) : 0 ≤ F.round q :=
  mul_nonneg (Nat.cast_nonneg _) (two_zpow_pos _).le

theorem round_zero : F.round 0 = 0 := by
  simp [round, roundHalfEven]

theorem le_round_of_multiple (hq : 0 ≤ q) {m : ℕ} (h : m * 2 ^ F.place q ≤ q) :
    m * 2 ^ F.place q ≤ F.round q := by
  have hpos := two_zpow_pos (F.place q)
  have hle : m ≤ roundHalfEven (q / 2 ^ F.place q) :=
    (rounds hq).le_of_natCast_le ((le_div_iff₀ hpos).mpr h)
  exact mul_le_mul_of_nonneg_right (Nat.cast_le.mpr hle) hpos.le

theorem round_le_of_multiple (hq : 0 ≤ q) {m : ℕ} (h : q ≤ m * 2 ^ F.place q) :
    F.round q ≤ m * 2 ^ F.place q := by
  have hpos := two_zpow_pos (F.place q)
  have hle : roundHalfEven (q / 2 ^ F.place q) ≤ m :=
    (rounds hq).le_of_le_natCast ((div_le_iff₀ hpos).mpr h)
  exact mul_le_mul_of_nonneg_right (Nat.cast_le.mpr hle) hpos.le

theorem abs_round_sub_le (hq : 0 ≤ q) : |F.round q - q| ≤ 2 ^ F.place q / 2 := by
  have hpos := two_zpow_pos (F.place q)
  have hnear := (rounds (F := F) hq).near
  have hscale : F.round q - q =
      -((q / 2 ^ F.place q - roundHalfEven (q / 2 ^ F.place q)) * 2 ^ F.place q) := by
    rw [round, sub_mul, div_mul_cancel₀ _ hpos.ne', neg_sub]
  rw [hscale, abs_neg, abs_mul, abs_of_pos hpos]
  calc
    |q / 2 ^ F.place q - roundHalfEven (q / 2 ^ F.place q)| * 2 ^ F.place q
        ≤ 1 / 2 * 2 ^ F.place q := mul_le_mul_of_nonneg_right hnear hpos.le
    _ = 2 ^ F.place q / 2 := by ring

theorem natCast_multiple {e : ℤ} (he : e ≤ 0) (n : ℕ) :
    ∃ m : ℕ, (m : ℚ) * 2 ^ e = n := by
  obtain ⟨k, hk⟩ := Int.eq_ofNat_of_zero_le (neg_nonneg.mpr he)
  obtain rfl : e = -(k : ℤ) := by omega
  refine ⟨n * 2 ^ k, ?_⟩
  rw [zpow_neg, zpow_natCast, Nat.cast_mul, Nat.cast_pow, Nat.cast_ofNat]
  exact mul_inv_cancel_right₀ (pow_ne_zero k two_ne_zero) _

theorem zpow_log_le (hq : 0 < q) : (2 : ℚ) ^ Int.log 2 q ≤ q := by
  exact_mod_cast Int.zpow_log_le_self one_lt_two hq

theorem place_eq_of_pos (h : 0 < F.place q) : F.place q = Int.log 2 q + 1 - F.precision := by
  have hfractional := F.fractional
  unfold place at h ⊢
  omega

theorem zpow_log_eq (h : 0 < F.place q) :
    (2 : ℚ) ^ Int.log 2 q = (2 ^ (F.precision - 1) : ℕ) * 2 ^ F.place q := by
  have hp := F.one_le_precision
  rw [Nat.cast_pow, Nat.cast_ofNat, ← zpow_natCast, ← zpow_add₀ two_ne_zero, place_eq_of_pos h]
  congr 1
  omega

theorem natCast_le_round (hq : 0 < q) {n : ℕ} (hn : n ≤ 2 ^ F.precision) (h : n ≤ q) :
    n ≤ F.round q := by
  rcases le_or_gt (F.place q) 0 with hplace | hplace
  · obtain ⟨m, hm⟩ := natCast_multiple hplace n
    rw [← hm] at h ⊢
    exact le_round_of_multiple hq.le h
  · have hlog := zpow_log_eq hplace
    have hround : (2 : ℚ) ^ Int.log 2 q ≤ F.round q := by
      rw [hlog]
      apply le_round_of_multiple hq.le
      rw [← hlog]
      exact zpow_log_le hq
    have hexp : (F.precision : ℤ) ≤ Int.log 2 q := by
      have heq := place_eq_of_pos hplace
      omega
    calc
      (n : ℚ) ≤ 2 ^ F.precision := by exact_mod_cast hn
      _ = 2 ^ (F.precision : ℤ) := (zpow_natCast ..).symm
      _ ≤ 2 ^ Int.log 2 q := zpow_le_zpow_right₀ one_le_two hexp
      _ ≤ F.round q := hround

theorem round_le_natCast (hq : 0 < q) {n : ℕ} (hn : n ≤ 2 ^ F.precision) (h : q ≤ n) :
    F.round q ≤ n := by
  rcases le_or_gt (F.place q) 0 with hplace | hplace
  · obtain ⟨m, hm⟩ := natCast_multiple hplace n
    rw [← hm] at h ⊢
    exact round_le_of_multiple hq.le h
  · have hlog := zpow_log_eq hplace
    have hexp : (F.precision : ℤ) ≤ Int.log 2 q := by
      have heq := place_eq_of_pos hplace
      omega
    have hle : (n : ℚ) ≤ 2 ^ Int.log 2 q :=
      calc
        (n : ℚ) ≤ 2 ^ F.precision := by exact_mod_cast hn
        _ = 2 ^ (F.precision : ℤ) := (zpow_natCast ..).symm
        _ ≤ 2 ^ Int.log 2 q := zpow_le_zpow_right₀ one_le_two hexp
    have heq : q = 2 ^ Int.log 2 q := le_antisymm (h.trans hle) (zpow_log_le hq)
    calc
      F.round q ≤ (2 ^ (F.precision - 1) : ℕ) * 2 ^ F.place q := by
        apply round_le_of_multiple hq.le
        rw [← hlog, ← heq]
      _ = q := by rw [← hlog, ← heq]
      _ ≤ n := h

theorem round_natCast {n : ℕ} (hn : n ≤ 2 ^ F.precision) : F.round n = n := by
  rcases Nat.eq_zero_or_pos n with rfl | hpos
  · rw [Nat.cast_zero, round_zero]
  · have hq : (0 : ℚ) < n := Nat.cast_pos.mpr hpos
    exact le_antisymm (round_le_natCast hq hn le_rfl) (natCast_le_round hq hn le_rfl)

theorem zpow_multiple {e e' : ℤ} (h : e ≤ e') : ∃ m : ℕ, (m : ℚ) * 2 ^ e = 2 ^ e' := by
  obtain ⟨k, hk⟩ := Int.eq_ofNat_of_zero_le (sub_nonneg.mpr h)
  refine ⟨2 ^ k, ?_⟩
  rw [Nat.cast_pow, Nat.cast_ofNat, ← zpow_natCast, ← zpow_add₀ two_ne_zero]
  congr 1
  omega

theorem round_mono {r : ℚ} (hq : 0 < q) (h : q ≤ r) : F.round q ≤ F.round r := by
  have hr : 0 < r := hq.trans_le h
  have hp := F.one_le_precision
  have hlog : Int.log 2 q ≤ Int.log 2 r := Int.log_mono_right hq h
  have hplace : F.place q ≤ F.place r := by
    unfold place
    omega
  rcases hplace.lt_or_eq with hlt | heq
  · -- The quantities have different last places, and a power of two lies between them.
    have hbetween : Int.log 2 q + 1 ≤ Int.log 2 r := by
      unfold place at hlt
      omega
    have hplaceLog : F.place r ≤ Int.log 2 r := by
      unfold place at hlt ⊢
      omega
    obtain ⟨m, hm⟩ := zpow_multiple (hlt.le.trans hplaceLog)
    obtain ⟨n, hn⟩ := zpow_multiple hplaceLog
    calc
      F.round q ≤ m * 2 ^ F.place q := by
        apply round_le_of_multiple hq.le
        rw [hm]
        calc
          q ≤ 2 ^ (Int.log 2 q + 1) := by
            exact_mod_cast (Int.lt_zpow_succ_log_self one_lt_two q).le
          _ ≤ 2 ^ Int.log 2 r := zpow_le_zpow_right₀ one_le_two hbetween
      _ = n * 2 ^ F.place r := by rw [hm, hn]
      _ ≤ F.round r := by
        apply le_round_of_multiple hr.le
        rw [hn]
        exact zpow_log_le hr
  · have hpos := two_zpow_pos (F.place r)
    unfold round
    rw [heq]
    apply mul_le_mul_of_nonneg_right _ hpos.le
    have hround := rounds (F := F) hq.le
    rw [heq] at hround
    exact Nat.cast_le.mpr (hround.mono (rounds hr.le) (div_le_div_of_nonneg_right h hpos.le))

theorem round_natCast_isNat (n : ℕ) : ∃ m : ℕ, F.round n = m := by
  rcases le_or_gt (F.place n) 0 with hplace | hplace
  · obtain ⟨m, hm⟩ := natCast_multiple hplace n
    refine ⟨n, le_antisymm ?_ ?_⟩
    · have hle := round_le_of_multiple (F := F) (Nat.cast_nonneg n) hm.ge
      rwa [hm] at hle
    · have hle := le_round_of_multiple (F := F) (Nat.cast_nonneg n) hm.le
      rwa [hm] at hle
  · obtain ⟨k, hk⟩ := Int.eq_ofNat_of_zero_le hplace.le
    refine ⟨roundHalfEven ((n : ℚ) / 2 ^ F.place n) * 2 ^ k, ?_⟩
    unfold round
    rw [hk]
    push_cast
    rfl

theorem round_pow_log (hq : 0 < q) (hlog : F.minPlace ≤ Int.log 2 q)
    (h : q = 2 ^ Int.log 2 q) : F.round q = q := by
  have hp := F.one_le_precision
  have hplace : F.place q ≤ Int.log 2 q := by
    unfold place
    omega
  obtain ⟨m, hm⟩ := zpow_multiple hplace
  have hmultiple : q = m * 2 ^ F.place q := h.trans hm.symm
  apply le_antisymm
  · have hle := round_le_of_multiple hq.le hmultiple.le
    rwa [← hmultiple] at hle
  · have hle := le_round_of_multiple hq.le hmultiple.ge
    rwa [← hmultiple] at hle

/-- Away from the smallest numbers the error is less than half a unit of the quantity's
own precision. -/
theorem abs_round_sub_lt (hq : 0 < q) (hplace : F.minPlace ≤ Int.log 2 q + 1 - F.precision) :
    |F.round q - q| < q / 2 ^ F.precision := by
  have hp := F.one_le_precision
  have hpow : (0 : ℚ) < 2 ^ F.precision := pow_pos two_pos _
  rcases (zpow_log_le hq).lt_or_eq with hlt | heq
  · have hunit : (2 : ℚ) ^ F.place q / 2 = 2 ^ Int.log 2 q / 2 ^ F.precision := by
      have heq : F.place q = Int.log 2 q + 1 - F.precision := by
        unfold place
        omega
      rw [heq, zpow_sub₀ two_ne_zero, zpow_add_one₀ two_ne_zero, zpow_natCast]
      ring
    calc
      |F.round q - q| ≤ 2 ^ F.place q / 2 := abs_round_sub_le hq.le
      _ = 2 ^ Int.log 2 q / 2 ^ F.precision := hunit
      _ < q / 2 ^ F.precision := div_lt_div_of_pos_right hlt hpow
  · rw [round_pow_log hq (by omega) heq.symm, sub_self, abs_zero]
    exact div_pos hq hpow

theorem round_lt_one (hq : 0 < q) (hplace : Int.log 2 q + 1 - F.precision < F.minPlace) :
    F.round q < 1 := by
  have hp := F.one_le_precision
  have hfractional := F.fractional
  have hlog : Int.log 2 q + 1 ≤ -1 := by omega
  have heq : F.place q = F.minPlace := by
    unfold place
    omega
  have hhalf : q < 1 / 2 :=
    calc
      q < 2 ^ (Int.log 2 q + 1) := by exact_mod_cast Int.lt_zpow_succ_log_self one_lt_two q
      _ ≤ 2 ^ (-1 : ℤ) := zpow_le_zpow_right₀ one_le_two hlog
      _ = 1 / 2 := by norm_num
  have herror : (2 : ℚ) ^ F.place q / 2 ≤ 1 / 4 :=
    calc
      (2 : ℚ) ^ F.place q / 2 ≤ 2 ^ (-1 : ℤ) / 2 := by
        apply div_le_div_of_nonneg_right _ two_pos.le
        apply zpow_le_zpow_right₀ one_le_two
        omega
      _ = 1 / 4 := by norm_num
  have hnear := (abs_le.mp (abs_round_sub_le (F := F) hq.le)).2
  linarith

/-- A quotient of naturals, the dividend within the precision, has the integer part of
the exact one. -/
theorem floor_round_div {a b : ℕ} (ha : a ≤ 2 ^ F.precision) (hb : 0 < b) :
    ⌊F.round (a / b)⌋₊ = a / b := by
  rcases Nat.eq_zero_or_pos a with rfl | hpos
  · simp [round_zero]
  have hbQ : (0 : ℚ) < b := Nat.cast_pos.mpr hb
  have hq : (0 : ℚ) < a / b := div_pos (Nat.cast_pos.mpr hpos) hbQ
  have hdivmod : (a : ℚ) = b * (a / b : ℕ) + (a % b : ℕ) := by
    exact_mod_cast (Nat.div_add_mod a b).symm
  have hmod : ((a % b : ℕ) : ℚ) + 1 ≤ b := by exact_mod_cast Nat.mod_lt a hb
  rw [Nat.floor_eq_iff (round_nonneg _)]
  constructor
  · apply natCast_le_round hq ((Nat.div_le_self a b).trans ha)
    exact Nat.cast_div_le
  · rcases le_or_gt F.minPlace (Int.log 2 ((a : ℚ) / b) + 1 - F.precision) with hplace | hplace
    · have hunit : (a : ℚ) / b / 2 ^ F.precision ≤ 1 / b := by
        rw [div_right_comm, div_le_div_iff_of_pos_right hbQ]
        apply div_le_one_of_le₀ _ (by positivity)
        exact_mod_cast ha
      have herror := (abs_lt.mp (abs_round_sub_lt hq hplace)).2
      have hnext : (a : ℚ) / b + 1 / b ≤ (a / b : ℕ) + 1 := by
        rw [← add_div, div_le_iff₀ hbQ]
        linarith
      linarith
    · have hone := round_lt_one hq hplace
      have hnonneg : (0 : ℚ) ≤ (a / b : ℕ) := Nat.cast_nonneg _
      linarith

end BinaryFormat
