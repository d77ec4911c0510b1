import Mathlib.Data.List.Sort
import Mathlib.Data.String.Basic
import Mathlib.Tactic

/-!
Coins of several denoms, as the modules of the chain keep them: sorted by denom, every
amount positive. Their arithmetic is the Cosmos SDK's, and a parameter here.
-/

namespace AgoricSdk.Cosmos

structure Coin where
  denom : String
  amount : ℕ
  deriving DecidableEq

/-- Coins name a denom at most once. -/
def amountOf (coins : List Coin) (denom : String) : ℕ :=
  ((coins.find? (·.denom = denom)).map Coin.amount).getD 0

def isZero (coins : List Coin) : Bool := coins.all (·.amount = 0)

def Distinct (coins : List Coin) : Prop := (coins.map Coin.denom).Nodup

structure Valid (coins : List Coin) : Prop where
  sorted : coins.Pairwise (·.denom < ·.denom)
  positive : ∀ coin ∈ coins, 0 < coin.amount

/-- `none` stands for a panic. -/
structure CoinOps where
  newCoins : List Coin → Option (List Coin)
  add : List Coin → List Coin → Option (List Coin)
  sub : List Coin → List Coin → Option (List Coin)
  /-- The product of an amount with a decimal fraction, cut down to an integer. -/
  mulTruncate : ℚ → ℕ → Option ℕ

structure CoinOps.Lawful (ops : CoinOps) : Prop where
  newCoins {coins out} (hcoins : Distinct coins) (h : ops.newCoins coins = some out) :
    Valid out ∧ ∀ denom, amountOf out denom = amountOf coins denom
  add {a b out} (ha : Valid a) (hb : Valid b) (h : ops.add a b = some out) :
    Valid out ∧ ∀ denom, amountOf out denom = amountOf a denom + amountOf b denom
  sub {a b out} (ha : Valid a) (hb : Valid b) (h : ops.sub a b = some out) :
    Valid out ∧ ∀ denom, amountOf out denom + amountOf b denom = amountOf a denom
  mulTruncate {q : ℚ} {amount product : ℕ} (hq : 0 ≤ q)
    (h : ops.mulTruncate q amount = some product) : product = ⌊q * amount⌋₊

section Amounts

variable {coin : Coin} {coins : List Coin} {denom : String}

@[simp] theorem amountOf_nil (denom : String) : amountOf [] denom = 0 := rfl

theorem amountOf_cons (coin : Coin) (coins : List Coin) (denom : String) :
    amountOf (coin :: coins) denom =
      if coin.denom = denom then coin.amount else amountOf coins denom := by
  unfold amountOf
  rw [List.find?_cons]
  by_cases h : coin.denom = denom
  · simp [h]
  · simp [h]

theorem amountOf_of_not_mem (h : denom ∉ coins.map Coin.denom) : amountOf coins denom = 0 := by
  induction coins with
  | nil => rfl
  | cons coin coins ih =>
    rw [List.map_cons, List.mem_cons, not_or] at h
    rw [amountOf_cons, if_neg (Ne.symm h.1), ih h.2]

theorem amountOf_of_isZero (h : isZero coins = true) (denom : String) :
    amountOf coins denom = 0 := by
  unfold amountOf
  cases hfind : coins.find? (·.denom = denom) with
  | none => rfl
  | some coin =>
    have hmem := List.mem_of_find?_eq_some hfind
    exact of_decide_eq_true (List.all_eq_true.mp h coin hmem)

theorem Valid.distinct (h : Valid coins) : Distinct coins := by
  unfold Distinct
  rw [List.nodup_iff_pairwise_ne, List.pairwise_map]
  exact h.sorted.imp fun hlt => hlt.ne

theorem Valid.nil : Valid [] := ⟨.nil, nofun⟩

theorem Valid.tail (h : Valid (coin :: coins)) : Valid coins :=
  ⟨h.sorted.of_cons, fun c hc => h.positive c (List.mem_cons_of_mem _ hc)⟩

theorem Valid.amountOf_eq_zero_of_lt (h : Valid (coin :: coins)) (hlt : denom < coin.denom) :
    amountOf (coin :: coins) denom = 0 := by
  apply amountOf_of_not_mem
  intro hmem
  obtain ⟨c, hc, rfl⟩ := List.mem_map.mp hmem
  rcases List.mem_cons.mp hc with rfl | hc
  · exact lt_irrefl _ hlt
  · exact lt_asymm hlt ((List.pairwise_cons.mp h.sorted).1 c hc)

theorem amountOf_filter_pos (coins : List Coin) (hdistinct : Distinct coins) (denom : String) :
    amountOf (coins.filter (0 < ·.amount)) denom = amountOf coins denom := by
  induction coins with
  | nil => rfl
  | cons coin coins ih =>
    obtain ⟨hnew, hrest⟩ := List.nodup_cons.mp hdistinct
    have ih := ih hrest
    by_cases hpos : 0 < coin.amount
    · rw [List.filter_cons_of_pos (by simpa using hpos), amountOf_cons, amountOf_cons, ih]
    · rw [List.filter_cons_of_neg (by simpa using hpos), ih, amountOf_cons]
      split
      case isTrue hdenom =>
        subst hdenom
        rw [amountOf_of_not_mem hnew]
        omega
      case isFalse => rfl

theorem Distinct.filter (h : Distinct coins) (p : Coin → Bool) : Distinct (coins.filter p) :=
  h.sublist (List.filter_sublist.map _)

theorem amountOf_mapM {f : ℕ → Option ℕ} {g : ℕ → ℕ} (hzero : g 0 = 0)
    (hfg : ∀ a b, f a = some b → b = g a) {out : List Coin}
    (h : (coins.mapM fun coin => (f coin.amount).map (Coin.mk coin.denom)) = some out) :
    out.map Coin.denom = coins.map Coin.denom ∧
      ∀ denom, amountOf out denom = g (amountOf coins denom) := by
  induction coins generalizing out with
  | nil =>
    cases h
    exact ⟨rfl, fun denom => hzero.symm⟩
  | cons coin coins ih =>
    rw [List.mapM_cons] at h
    obtain ⟨head, hhead, h⟩ := Option.bind_eq_some_iff.mp h
    obtain ⟨rest, hrest, h⟩ := Option.bind_eq_some_iff.mp h
    cases h
    obtain ⟨amount, hamount, rfl⟩ := Option.map_eq_some_iff.mp hhead
    obtain ⟨hdenoms, hamounts⟩ := ih hrest
    constructor
    · rw [List.map_cons, List.map_cons, hdenoms]
    · intro denom
      rw [amountOf_cons, amountOf_cons, hfg _ _ hamount, hamounts, apply_ite g]

end Amounts

end AgoricSdk.Cosmos
