import AgoricSdk.Fees.ChargeBeans

/-!
The coin arithmetic of the Cosmos SDK, as far as its documentation fixes it, and a bank
of plain balances. Both keep the laws that the charging of fees relies on.
-/

namespace AgoricSdk.Fees

open Cosmos

/-- A product is rounded once, a quotient cut off at 36 decimals first. -/
def decMul (a b : ℚ) : ℚ := roundHalfEven (a * b * 10 ^ 18) / 10 ^ 18

def decQuo (a b : ℚ) : ℚ := roundHalfEven ((⌊a / b * 10 ^ 36⌋₊ : ℚ) / 10 ^ 18) / 10 ^ 18

theorem keeps_of_rounds {q x : ℚ} {n : Nat} (hround : RoundsHalfEven x n)
    (hnear : |x - q * 10 ^ 18| ≤ 1 / 2)
    (hexact : ∀ m : Nat, q = m / 10 ^ 18 → x = m) : Keeps q (n / 10 ^ 18) := by
  constructor
  · have hsum : |(n : ℚ) - q * 10 ^ 18| ≤ 1 := by
      have hn := hround.near
      rw [abs_sub_comm] at hn
      calc
        |(n : ℚ) - q * 10 ^ 18| ≤ |(n : ℚ) - x| + |x - q * 10 ^ 18| := abs_sub_le ..
        _ ≤ 1 / 2 + 1 / 2 := add_le_add hn hnear
        _ = 1 := by norm_num
    have hscale : (n : ℚ) / 10 ^ 18 - q = (n - q * 10 ^ 18) / 10 ^ 18 := by
      rw [sub_div, mul_div_cancel_right₀ _ (by norm_num)]
    rw [hscale, abs_div, abs_of_pos (by norm_num : (0 : ℚ) < 10 ^ 18)]
    exact div_le_div_of_nonneg_right hsum (by norm_num)
  · intro m hm
    have hx := hexact m hm
    rw [hx] at hround
    rw [hm, hround.unique (RoundsHalfEven.natCast m)]

theorem keeps_decMul {a b : ℚ} (ha : 0 ≤ a) (hb : 0 ≤ b) : Keeps (a * b) (decMul a b) := by
  apply keeps_of_rounds (roundsHalfEven_roundHalfEven (by positivity))
  · rw [sub_self, abs_zero]
    norm_num
  · intro m hm
    rw [hm, div_mul_cancel₀ _ (by norm_num)]

theorem keeps_decQuo {a b : ℚ} (ha : 0 ≤ a) (hb : 0 ≤ b) : Keeps (a / b) (decQuo a b) := by
  have hnonneg : 0 ≤ a / b * 10 ^ 36 := by positivity
  apply keeps_of_rounds (roundsHalfEven_roundHalfEven (by positivity))
  · have hlo := Nat.floor_le hnonneg
    have hhi := Nat.lt_floor_add_one (a / b * 10 ^ 36)
    rw [abs_le]
    constructor
    · rw [le_sub_iff_add_le, le_div_iff₀ (by norm_num)]
      linarith
    · rw [sub_le_iff_le_add, div_le_iff₀ (by norm_num)]
      linarith
  · intro m hm
    have hm' : a / b * 10 ^ 36 = (m * 10 ^ 18 : Nat) := by
      rw [hm]
      push_cast
      ring
    rw [hm', Nat.floor_natCast]
    push_cast
    exact mul_div_cancel_right₀ _ (by norm_num)

def bounded (coins : List DecCoin) : Option (List DecCoin) :=
  if coins.all fun coin => decide (coin.amount * 10 ^ 18 < 2 ^ 315) then some coins else none

/-- The arithmetic as the SDK documents it, but for the order of the coins. -/
def sdkMath : CoinMath where
  newDecCoinsFromCoins coins :=
    let coins := coins.filter (·.amount ≠ 0)
    if (coins.map Coin.denom).Nodup then some (coins.map fun coin => ⟨coin.denom, coin.amount⟩)
    else none
  mulDec coins q := bounded (coins.map fun coin => { coin with amount := decMul coin.amount q })
  quoDec coins q :=
    if q = 0 then none
    else bounded (coins.map fun coin => { coin with amount := decQuo coin.amount q })
  truncateDecimal coins := (coins.map fun coin => ⟨coin.denom, ⌊coin.amount⌋₊⟩).filter (·.amount ≠ 0)

section Lookup

variable {α : Type} {key : α → String} {coins : List α}

theorem find?_eq_none_of_not_mem {denom : String} (h : denom ∉ coins.map key) :
    coins.find? (key · = denom) = none := by
  rw [List.find?_eq_none]
  intro coin hcoin heq
  exact h (List.mem_map.mpr ⟨coin, hcoin, of_decide_eq_true heq⟩)

theorem find?_filter_of_nodup (hnodup : (coins.map key).Nodup) (p : α → Bool) (denom : String) :
    (coins.filter p).find? (key · = denom) = (coins.find? (key · = denom)).filter p := by
  induction coins with
  | nil => rfl
  | cons coin coins ih =>
    obtain ⟨hnew, hrest⟩ := List.nodup_cons.mp hnodup
    by_cases hkey : key coin = denom
    · subst hkey
      cases hp : p coin
      · rw [List.filter_cons_of_neg (by simp [hp]), ih hrest, find?_eq_none_of_not_mem hnew]
        simp [Option.filter, hp]
      · simp [Option.filter, hp]
    · cases hp : p coin <;> simp [hp, hkey, ih hrest]

end Lookup

theorem priceOf_filter (price : List Coin) (denom : String) :
    priceOf (price.filter (·.amount ≠ 0)) denom = priceOf price denom := by
  induction price with
  | nil => rfl
  | cons coin price ih =>
    unfold priceOf at ih ⊢
    by_cases hzero : coin.amount = 0 <;> by_cases hdenom : coin.denom = denom <;>
      simp_all

theorem priceOf_eq_amountOf {price : List Coin} (h : (price.map Coin.denom).Nodup)
    (denom : String) : priceOf price denom = amountOf price denom := by
  induction price with
  | nil => rfl
  | cons coin price ih =>
    obtain ⟨hnew, hrest⟩ := List.nodup_cons.mp h
    have ih := ih hrest
    unfold priceOf amountOf at ih ⊢
    by_cases hdenom : coin.denom = denom
    · subst hdenom
      rw [find?_eq_none_of_not_mem hnew] at ih
      simpa using ih
    · simpa [hdenom] using ih

theorem decAmountOf_map {f : ℚ → ℚ} (hf : f 0 = 0) (coins : List DecCoin) (denom : String) :
    decAmountOf (coins.map fun coin => { coin with amount := f coin.amount }) denom =
      f (decAmountOf coins denom) := by
  unfold decAmountOf
  rw [List.find?_map]
  cases hfind : coins.find? (·.denom = denom) with
  | none => simpa [Function.comp_def, hfind] using hf.symm
  | some coin => simp [hfind]

theorem bounded_eq_some {coins out : List DecCoin} (h : bounded coins = some out) : out = coins := by
  unfold bounded at h
  split at h
  · exact (Option.some.inj h).symm
  · cases h

theorem distinct_map {coins : List DecCoin} {f : ℚ → ℚ} (h : DistinctDec coins) :
    DistinctDec (coins.map fun coin => { coin with amount := f coin.amount }) := by
  unfold DistinctDec at h ⊢
  rwa [List.map_map]

theorem sdkMath_lawful : sdkMath.Lawful := by
  constructor
  · intro coins dec h
    simp only [sdkMath, Option.ite_none_right_eq_some, Option.some.injEq] at h
    obtain ⟨hnodup, rfl⟩ := h
    constructor
    · unfold DistinctDec
      rwa [List.map_map]
    · intro denom
      rw [← priceOf_filter, priceOf_eq_amountOf hnodup, decAmountOf, amountOf, List.find?_map]
      cases hfind : (coins.filter (·.amount ≠ 0)).find? (·.denom = denom) with
      | none => simp [hfind]
      | some coin => simp [hfind]
  · intro dec out q hdec hq h
    obtain rfl := bounded_eq_some h
    refine ⟨distinct_map (f := (decMul · q)) hdec, fun denom hnonneg => ?_⟩
    rw [decAmountOf_map (f := (decMul · q)) (by simp [decMul, roundHalfEven])]
    exact keeps_decMul hnonneg hq
  · intro dec out q hdec hq h
    simp only [sdkMath, Option.ite_none_left_eq_some] at h
    obtain ⟨hne, h⟩ := h
    obtain rfl := bounded_eq_some h
    refine ⟨hne, distinct_map (f := (decQuo · q)) hdec, fun denom hnonneg => ?_⟩
    rw [decAmountOf_map (f := (decQuo · q)) (by simp [decQuo, roundHalfEven])]
    exact keeps_decQuo hnonneg hq
  · intro dec hdec denom
    have hnodup : ((dec.map fun coin => (⟨coin.denom, ⌊coin.amount⌋₊⟩ : Coin)).map
        Coin.denom).Nodup := by
      rwa [List.map_map]
    simp only [sdkMath, amountOf, decAmountOf]
    rw [find?_filter_of_nodup hnodup, List.find?_map]
    cases hfind : dec.find? (·.denom = denom) with
    | none => simp [hfind]
    | some coin =>
      by_cases hzero : ⌊coin.amount⌋₊ = 0
      · simp [hfind, Option.filter, hzero]
      · simp [hfind, Option.filter, hzero]

/-- Balances by account and denom. -/
def mapBank : BankKeeper (String → String → Nat) String where
  balance b := b
  moduleAddress moduleName := moduleName
  sendCoinsFromAccountToModule b addr moduleName coins :=
    if coins.all fun coin => amountOf coins coin.denom ≤ b addr coin.denom then
      (none, fun account denom =>
        b account denom - (if account = addr then amountOf coins denom else 0) +
          (if account = moduleName then amountOf coins denom else 0))
    else (some "insufficient funds", b)

theorem moved_add {amount balance : Nat} {p q : Prop} [Decidable p] [Decidable q]
    (h : p → amount ≤ balance) :
    balance - (if p then amount else 0) + (if q then amount else 0) + (if p then amount else 0) =
      balance + (if q then amount else 0) := by
  by_cases hp : p
  · have hle := h hp
    rw [if_pos hp]
    omega
  · rw [if_neg hp]
    rfl

theorem mapBank_lawful : mapBank.Lawful := by
  constructor
  intro b b' addr moduleName coins h account denom
  unfold mapBank at h
  dsimp only at h
  split at h
  case isFalse => cases h
  case isTrue hall =>
    obtain ⟨-, rfl⟩ := Prod.mk.inj h
    apply moved_add
    rintro rfl
    cases hfind : coins.find? (·.denom = denom) with
    | none => simp [amountOf, hfind]
    | some coin =>
      have hmem := List.mem_of_find?_eq_some hfind
      have hcoin := List.all_eq_true.mp hall coin hmem
      have hdenom : coin.denom = denom := by simpa using List.find?_some hfind
      rw [hdenom] at hcoin
      exact of_decide_eq_true hcoin

end AgoricSdk.Fees
