import Mathlib.Tactic

/-!
Rounding a quantity to a natural number: down, up, or to the nearest with ties to
even. A rounding is stated about the quantity in an ordered field; for a quotient of
naturals it comes down to inequalities between products.
-/

section Rounding

variable {K : Type*} [Field K] [LinearOrder K] [IsStrictOrderedRing K]

/-- The nearest natural number; the even one of two that are as near. -/
structure RoundsHalfEven (q : K) (n : ℕ) : Prop where
  near : |q - n| ≤ 1 / 2
  tie_even : |q - n| = 1 / 2 → Even n

namespace RoundsHalfEven

variable {q q' : K} {m n : ℕ}

theorem le_add_half (h : RoundsHalfEven q n) : q ≤ n + 1 / 2 := by
  have hnear := (abs_le.mp h.near).2
  linarith

theorem sub_half_le (h : RoundsHalfEven q n) : n - 1 / 2 ≤ q := by
  have hnear := (abs_le.mp h.near).1
  linarith

theorem natCast (n : ℕ) : RoundsHalfEven (n : K) n where
  near := by norm_num
  tie_even := by norm_num

theorem mono (h : RoundsHalfEven q m) (h' : RoundsHalfEven q' n) (hle : q ≤ q') : m ≤ n := by
  by_contra hlt
  have hsucc : n + 1 ≤ m := by omega
  have hcast : (n : K) + 1 ≤ m := by exact_mod_cast hsucc
  have hm := h.sub_half_le
  have hn := h'.le_add_half
  have hq : q = n + 1 / 2 := by linarith
  have hq' : q' = n + 1 / 2 := by linarith
  have hmn : m = n + 1 := by
    have hm' : (m : K) = n + 1 := by linarith
    exact_mod_cast hm'
  have heven : Even n := h'.tie_even (by rw [hq']; norm_num)
  have heven' : Even m := h.tie_even (by rw [hq, hmn]; push_cast; ring_nf; norm_num [abs_div])
  rw [hmn] at heven'
  exact (Nat.even_add_one.mp heven') heven

theorem unique (h : RoundsHalfEven q m) (h' : RoundsHalfEven q n) : m = n :=
  le_antisymm (h.mono h' le_rfl) (h'.mono h le_rfl)

theorem le_of_le_natCast (h : RoundsHalfEven q m) (hle : q ≤ n) : m ≤ n :=
  h.mono (natCast n) hle

theorem le_of_natCast_le (h : RoundsHalfEven q m) (hle : n ≤ q) : n ≤ m :=
  (natCast n).mono h hle

theorem div_iff {a b : ℕ} (hb : 0 < b) :
    RoundsHalfEven ((a : K) / b) n ↔
      2 * a ≤ 2 * (n * b) + b ∧ 2 * (n * b) ≤ 2 * a + b ∧
        (2 * a = 2 * (n * b) + b ∨ 2 * (n * b) = 2 * a + b → Even n) := by
  have hbK : (0 : K) < b := by exact_mod_cast hb
  have hupper : (a : K) / b - n ≤ 1 / 2 ↔ 2 * a ≤ 2 * (n * b) + b := by
    rw [sub_le_iff_le_add, div_le_iff₀ hbK, ← Nat.cast_le (α := K)]
    push_cast
    constructor <;> intro h <;> linarith
  have hlower : -(1 / 2) ≤ (a : K) / b - n ↔ 2 * (n * b) ≤ 2 * a + b := by
    rw [le_sub_iff_add_le, le_div_iff₀ hbK, ← Nat.cast_le (α := K)]
    push_cast
    constructor <;> intro h <;> linarith
  have htie : |(a : K) / b - n| = 1 / 2 ↔
      2 * a = 2 * (n * b) + b ∨ 2 * (n * b) = 2 * a + b := by
    have hdiv : (a : K) / b - n = 1 / 2 ↔ 2 * a = 2 * (n * b) + b := by
      rw [sub_eq_iff_eq_add, div_eq_iff hbK.ne', ← Nat.cast_inj (R := K)]
      push_cast
      constructor <;> intro h <;> linarith
    have hdiv' : (a : K) / b - n = -(1 / 2) ↔ 2 * (n * b) = 2 * a + b := by
      rw [sub_eq_iff_eq_add, div_eq_iff hbK.ne', ← Nat.cast_inj (R := K)]
      push_cast
      constructor <;> intro h <;> linarith
    rw [abs_eq (by norm_num), hdiv, hdiv']
  constructor
  · intro h
    obtain ⟨hlo, hhi⟩ := abs_le.mp h.near
    exact ⟨hupper.mp hhi, hlower.mp hlo, fun ht => h.tie_even (htie.mpr ht)⟩
  · rintro ⟨hhi, hlo, heven⟩
    exact ⟨abs_le.mpr ⟨hlower.mpr hlo, hupper.mpr hhi⟩, fun ht => heven (htie.mp ht)⟩

end RoundsHalfEven

variable [FloorSemiring K]

/-- At a midpoint the parity of the lower number decides. -/
def roundHalfEven (q : K) : ℕ :=
  if q - ⌊q⌋₊ < 1 / 2 then ⌊q⌋₊
  else if 1 / 2 < q - ⌊q⌋₊ then ⌊q⌋₊ + 1
  else ⌊q⌋₊ + ⌊q⌋₊ % 2

theorem roundsHalfEven_roundHalfEven {q : K} (hq : 0 ≤ q) :
    RoundsHalfEven q (roundHalfEven q) := by
  have hlo := Nat.floor_le hq
  have hhi := Nat.lt_floor_add_one q
  unfold roundHalfEven
  split_ifs with hbelow habove
  · have hnonneg : 0 ≤ q - ⌊q⌋₊ := by linarith
    constructor
    · rw [abs_of_nonneg hnonneg]
      exact hbelow.le
    · intro htie
      rw [abs_of_nonneg hnonneg] at htie
      exact absurd htie hbelow.ne
  · have hneg : q - (⌊q⌋₊ + 1 : ℕ) < 0 := by
      push_cast
      linarith
    constructor
    · rw [abs_of_neg hneg]
      push_cast
      linarith
    · intro htie
      rw [abs_of_neg hneg] at htie
      push_cast at htie
      linarith
  · have htie : q - ⌊q⌋₊ = 1 / 2 := le_antisymm (not_lt.mp habove) (not_lt.mp hbelow)
    constructor
    · rcases Nat.mod_two_eq_zero_or_one ⌊q⌋₊ with h | h <;> rw [h] <;> push_cast <;>
        rw [abs_le] <;> constructor <;> linarith
    · intro _
      rw [Nat.even_iff]
      omega

theorem RoundsHalfEven.eq_roundHalfEven {q : K} {n : ℕ} (hq : 0 ≤ q) (h : RoundsHalfEven q n) :
    n = roundHalfEven q :=
  h.unique (roundsHalfEven_roundHalfEven hq)

inductive RoundingMode where
  | down
  | up
  | halfEven
  deriving DecidableEq

def RoundingMode.round (mode : RoundingMode) (q : K) : ℕ :=
  match mode with
  | .down => ⌊q⌋₊
  | .up => ⌈q⌉₊
  | .halfEven => roundHalfEven q

end Rounding
