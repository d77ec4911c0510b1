import AgoricSdk.Cosmos.Coins

/-!
The arithmetic of coins as its documentation has it, and that it keeps the laws the
modules rely on. Amounts are not bounded.
-/

namespace AgoricSdk.Cosmos

/-- The coins of the given denoms, in order, without those of which there are none. -/
def ofAmounts (denoms : List String) (amount : String → ℕ) : List Coin :=
  ((denoms.dedup.insertionSort (· ≤ ·)).map fun denom => ⟨denom, amount denom⟩).filter
    (0 < ·.amount)

theorem ofAmounts_spec (denoms : List String) (amount : String → ℕ) :
    Valid (ofAmounts denoms amount) ∧ ∀ denom, amountOf (ofAmounts denoms amount) denom =
      if denom ∈ denoms then amount denom else 0 := by
  have hperm := List.perm_insertionSort (· ≤ ·) denoms.dedup
  have hnodup : (denoms.dedup.insertionSort (· ≤ ·)).Nodup :=
    hperm.nodup_iff.mpr (List.nodup_dedup denoms)
  have hmem (denom : String) :
      denom ∈ denoms.dedup.insertionSort (· ≤ ·) ↔ denom ∈ denoms := by
    rw [hperm.mem_iff, List.mem_dedup]
  have hsorted : (denoms.dedup.insertionSort (· ≤ ·)).Pairwise (· < ·) := by
    have hle := List.pairwise_insertionSort (· ≤ ·) denoms.dedup
    exact (hle.and hnodup).imp fun h => lt_of_le_of_ne h.1 h.2
  unfold ofAmounts
  generalize denoms.dedup.insertionSort (· ≤ ·) = ds at hnodup hmem hsorted
  have hdistinct : Distinct (ds.map fun denom => ⟨denom, amount denom⟩) := by
    unfold Distinct
    rw [List.map_map]
    exact (List.map_id ds).symm ▸ hnodup
  constructor
  · constructor
    · apply List.Pairwise.filter
      rw [List.pairwise_map]
      exact hsorted
    · intro coin hcoin
      exact of_decide_eq_true (List.mem_filter.mp hcoin).2
  · intro denom
    rw [amountOf_filter_pos _ hdistinct]
    simp only [← hmem]
    clear hnodup hmem hsorted hdistinct
    induction ds with
    | nil => rfl
    | cons d ds ih =>
      rw [List.map_cons, amountOf_cons, ih]
      by_cases h : d = denom
      · subst h
        simp
      · simp [h, Ne.symm h]

def sdkCoins : CoinOps where
  newCoins coins :=
    if ((coins.filter (0 < ·.amount)).map Coin.denom).Nodup then
      some (ofAmounts (coins.map Coin.denom) (amountOf (coins.filter (0 < ·.amount))))
    else none
  add a b := some (ofAmounts (a.map Coin.denom ++ b.map Coin.denom)
    fun denom => amountOf a denom + amountOf b denom)
  sub a b :=
    if b.all fun coin => decide (coin.amount ≤ amountOf a coin.denom) then
      some (ofAmounts (a.map Coin.denom) fun denom => amountOf a denom - amountOf b denom)
    else none
  mulTruncate q amount := some ⌊q * amount⌋₊

theorem sdkCoins_lawful : sdkCoins.Lawful where
  newCoins {coins out} hcoins h := by
    simp only [sdkCoins, Option.ite_none_right_eq_some, Option.some.injEq] at h
    obtain ⟨-, rfl⟩ := h
    obtain ⟨hvalid, hamounts⟩ :=
      ofAmounts_spec (coins.map Coin.denom) (amountOf (coins.filter (0 < ·.amount)))
    refine ⟨hvalid, fun denom => ?_⟩
    rw [hamounts, amountOf_filter_pos coins hcoins]
    by_cases hmem : denom ∈ coins.map Coin.denom
    · rw [if_pos hmem]
    · rw [if_neg hmem, amountOf_of_not_mem hmem]
  add {a b out} _ _ h := by
    cases h
    obtain ⟨hvalid, hamounts⟩ := ofAmounts_spec (a.map Coin.denom ++ b.map Coin.denom)
      fun denom => amountOf a denom + amountOf b denom
    refine ⟨hvalid, fun denom => ?_⟩
    rw [hamounts]
    by_cases hmem : denom ∈ a.map Coin.denom ++ b.map Coin.denom
    · rw [if_pos hmem]
    · rw [if_neg hmem]
      rw [List.mem_append, not_or] at hmem
      rw [amountOf_of_not_mem hmem.1, amountOf_of_not_mem hmem.2]
  sub {a b out} _ hb h := by
    simp only [sdkCoins, Option.ite_none_right_eq_some, Option.some.injEq] at h
    obtain ⟨hall, rfl⟩ := h
    obtain ⟨hvalid, hamounts⟩ := ofAmounts_spec (a.map Coin.denom)
      fun denom => amountOf a denom - amountOf b denom
    refine ⟨hvalid, fun denom => ?_⟩
    have hle : amountOf b denom ≤ amountOf a denom := by
      by_cases hzero : amountOf b denom = 0
      · omega
      · unfold amountOf at hzero
        cases hfind : b.find? (·.denom = denom) with
        | none =>
          rw [hfind] at hzero
          exact absurd rfl hzero
        | some coin =>
          have hmem := List.mem_of_find?_eq_some hfind
          have hdenom : coin.denom = denom := by simpa using List.find?_some hfind
          have hcoin := of_decide_eq_true (List.all_eq_true.mp hall coin hmem)
          rw [hdenom] at hcoin
          have hamount : amountOf b denom = coin.amount := by simp [amountOf, hfind]
          rwa [hamount]
    rw [hamounts]
    by_cases hmem : denom ∈ a.map Coin.denom
    · rw [if_pos hmem]
      omega
    · have hzero := amountOf_of_not_mem hmem
      rw [if_neg hmem]
      omega
  mulTruncate _ h := (Option.some.inj h).symm

end AgoricSdk.Cosmos
