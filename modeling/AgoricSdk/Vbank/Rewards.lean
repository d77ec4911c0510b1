import AgoricSdk.Cosmos.Coins

/-!
The rewards state machine of the bank module. Rewards are given into a pool; at the start
of every epoch a part of the pool is fixed, to be handed out over the smoothing blocks.
-/

namespace AgoricSdk.Vbank

open Cosmos

/-- An operation that fails has no next state. -/
structure BankKeeper (B : Type) where
  balance : B → String → String → ℕ
  moduleAddress : String → String
  mintCoins : B → String → List Coin → Option B
  sendCoinsFromModuleToModule : B → String → String → List Coin → Option B

structure BankKeeper.Lawful {B : Type} (bank : BankKeeper B) : Prop where
  minted {b b' : B} {moduleName : String} {coins : List Coin}
    (h : bank.mintCoins b moduleName coins = some b') (account denom : String) :
    bank.balance b' account denom = bank.balance b account denom +
      (if account = bank.moduleAddress moduleName then amountOf coins denom else 0)
  sent {b b' : B} {sender recipient : String} {coins : List Coin}
    (h : bank.sendCoinsFromModuleToModule b sender recipient coins = some b')
    (account denom : String) :
    bank.balance b' account denom +
        (if account = bank.moduleAddress sender then amountOf coins denom else 0) =
      bank.balance b account denom +
        (if account = bank.moduleAddress recipient then amountOf coins denom else 0)

structure Keeper (B : Type) where
  coins : CoinOps
  bank : BankKeeper B
  rewardDistributorName : String

/-- The module's own account. -/
def ModuleName : String := "vbank"

structure Params where
  rewardEpochDurationBlocks : ℤ := 0
  rewardSmoothingBlocks : ℤ := 1
  perEpochRewardFraction : ℚ := 1
  deriving DecidableEq

inductive ParamsError where
  | negativeRewardEpochDurationBlocks (v : ℤ)
  | negativePerEpochRewardFraction (v : ℚ)
  | perEpochRewardFractionAboveOne (v : ℚ)
  | negativeRewardSmoothingBlocks (v : ℤ)
  deriving DecidableEq

namespace Params

def validateBasic (p : Params) : Except ParamsError Unit :=
  if p.rewardEpochDurationBlocks < 0 then
    throw (.negativeRewardEpochDurationBlocks p.rewardEpochDurationBlocks)
  else if p.perEpochRewardFraction < 0 then
    throw (.negativePerEpochRewardFraction p.perEpochRewardFraction)
  else if 1 < p.perEpochRewardFraction then
    throw (.perEpochRewardFractionAboveOne p.perEpochRewardFraction)
  else if p.rewardSmoothingBlocks < 0 then
    throw (.negativeRewardSmoothingBlocks p.rewardSmoothingBlocks)
  else pure ()

def getSmoothingBlocks (p : Params) : ℤ :=
  if p.rewardSmoothingBlocks < 0 then
    if p.rewardEpochDurationBlocks = 0 then 1 else p.rewardEpochDurationBlocks
  else p.rewardSmoothingBlocks

theorem validateBasic_eq_ok {p : Params} (h : p.validateBasic = .ok ()) :
    0 ≤ p.rewardEpochDurationBlocks ∧ 0 ≤ p.perEpochRewardFraction ∧
      p.perEpochRewardFraction ≤ 1 ∧ p.getSmoothingBlocks = p.rewardSmoothingBlocks ∧
      0 ≤ p.rewardSmoothingBlocks := by
  unfold validateBasic at h
  split_ifs at h with hepoch hfraction hone hsmoothing
  rw [getSmoothingBlocks, if_neg hsmoothing]
  exact ⟨not_lt.mp hepoch, not_lt.mp hfraction, not_lt.mp hone, rfl, not_lt.mp hsmoothing⟩

end Params

def minCoin (coinA coinB : Coin) : Coin :=
  if coinB.amount < coinA.amount then coinB else coinA

/-- Walk through the second list for one coin of the first. -/
def minCoinsFrom (coinA : Coin) (rest : List Coin → List Coin) : List Coin → List Coin
  | [] => []
  | coinB :: b =>
    if coinA.denom < coinB.denom then rest (coinB :: b)
    else if coinA.denom = coinB.denom then
      if (minCoin coinA coinB).amount = 0 then rest b else minCoin coinA coinB :: rest b
    else minCoinsFrom coinA rest b

/-- Two sorted lists in step. -/
def minCoinsLoop : List Coin → List Coin → List Coin
  | [] => fun _ => []
  | coinA :: a => minCoinsFrom coinA (minCoinsLoop a)

def minCoins (ops : CoinOps) (a b : List Coin) : Option (List Coin) :=
  ops.newCoins (minCoinsLoop a b)

def mulCoins (ops : CoinOps) (a : List Coin) (b : ℚ) : Option (List Coin) := do
  let coins ← a.mapM fun coin => (ops.mulTruncate b coin.amount).map (Coin.mk coin.denom)
  ops.newCoins (coins.filter (0 < ·.amount))

/-- The share of one block: the amount divided, fractions rounded up. -/
def rateOf (amount : ℕ) (blocks : ℤ) : ℕ :=
  if amount = 0 then 0 else (amount - 1) / blocks.toNat + 1

def rewardRate (ops : CoinOps) (pool : List Coin) (blocks : ℤ) : Option (List Coin) :=
  if 0 < blocks then do
    let coins ← (pool.filter (0 < ·.amount)).mapM fun coin =>
      (some (rateOf coin.amount blocks)).map (Coin.mk coin.denom)
    ops.newCoins coins
  else ops.newCoins []

structure State where
  rewardPool : List Coin := []
  rewardBlockAmount : List Coin := []
  lastRewardDistributionBlock : ℤ := 0
  deriving DecidableEq

structure System (B : Type) where
  state : State := {}
  bank : B
  height : ℤ := 0

variable {B : Type}

/-- Fix the rewards of a new epoch once the last one is over. -/
def beginEpoch (k : Keeper B) (params : Params) (thisBlock : ℤ) (state : State) : Option State :=
  if params.rewardEpochDurationBlocks ≤ thisBlock - state.lastRewardDistributionBlock then do
    let toDistribute ← mulCoins k.coins state.rewardPool params.perEpochRewardFraction
    let rate ← rewardRate k.coins toDistribute params.getSmoothingBlocks
    return { state with lastRewardDistributionBlock := thisBlock, rewardBlockAmount := rate }
  else some state

def sendCoinsToRewardDistributor (k : Keeper B) (bank : B) (amt : List Coin) : Option B :=
  k.bank.sendCoinsFromModuleToModule bank ModuleName k.rewardDistributorName amt

/-- What was sent, and the next state. The cycle index is that of the block before any new
epoch was begun. -/
def distributeRewards (k : Keeper B) (params : Params) (s : System B) :
    Option (List Coin × System B) := do
  let cycleIndex := s.height - s.state.lastRewardDistributionBlock
  let state ← beginEpoch k params s.height s.state
  if params.getSmoothingBlocks ≤ cycleIndex then return ([], { s with state })
  else do
    let xfer ← minCoins k.coins state.rewardBlockAmount state.rewardPool
    let bank ← (if isZero xfer then some s.bank else sendCoinsToRewardDistributor k s.bank xfer)
    let rewardPool ← k.coins.sub state.rewardPool xfer
    return (xfer, { s with state := { state with rewardPool }, bank })

/-- The end of the next block. -/
def endBlock (k : Keeper B) (params : Params) (s : System B) : Option (List Coin × System B) :=
  distributeRewards k params { s with height := s.height + 1 }

/-- `VBANK_GIVE_TO_REWARD_DISTRIBUTOR`: the coins given, and the next state. -/
def giveToRewardDistributor (k : Keeper B) (denom : String) (value : ℤ) (s : System B) :
    Option (List Coin × System B) := do
  let amount ← (if value < 0 then none else some value.toNat)
  let coins ← k.coins.newCoins [⟨denom, amount⟩]
  let bank ← k.bank.mintCoins s.bank ModuleName coins
  let rewardPool ← k.coins.add s.state.rewardPool coins
  return (coins, { s with state := { s.state with rewardPool }, bank })

section CoinLoops

variable {ops : CoinOps} {a b out : List Coin}

theorem minCoin_spec {coinA coinB : Coin} (heq : coinA.denom = coinB.denom) :
    (minCoin coinA coinB).amount = min coinA.amount coinB.amount ∧
      (minCoin coinA coinB).denom = coinA.denom := by
  unfold minCoin
  split
  case isTrue hlt => exact ⟨(Nat.min_eq_right hlt.le).symm, heq.symm⟩
  case isFalse hle => exact ⟨(Nat.min_eq_left (not_lt.mp hle)).symm, rfl⟩

theorem minCoinsFrom_spec {coinA : Coin} {rest : List Coin → List Coin} (ha : Valid (coinA :: a))
    (hrest : ∀ b, Valid b → ((rest b).map Coin.denom).Sublist (a.map Coin.denom) ∧
      ∀ denom, amountOf (rest b) denom = min (amountOf a denom) (amountOf b denom))
    (hb : Valid b) :
    ((minCoinsFrom coinA rest b).map Coin.denom).Sublist ((coinA :: a).map Coin.denom) ∧
      ∀ denom, amountOf (minCoinsFrom coinA rest b) denom =
        min (amountOf (coinA :: a) denom) (amountOf b denom) := by
  induction b with
  | nil => exact ⟨List.nil_sublist _, fun denom => (Nat.min_zero _).symm⟩
  | cons coinB b ih =>
    unfold minCoinsFrom
    by_cases hlt : coinA.denom < coinB.denom
    · obtain ⟨hsub, hamounts⟩ := hrest _ hb
      rw [if_pos hlt]
      refine ⟨hsub.trans (List.sublist_cons_self ..), fun denom => ?_⟩
      rw [hamounts, amountOf_cons coinA]
      split
      case isTrue hdenom =>
        subst hdenom
        rw [hb.amountOf_eq_zero_of_lt hlt, Nat.min_zero, Nat.min_zero]
      case isFalse => rfl
    rw [if_neg hlt]
    by_cases heq : coinA.denom = coinB.denom
    · obtain ⟨hsub, hamounts⟩ := hrest _ hb.tail
      have hposA := ha.positive coinA List.mem_cons_self
      have hposB := hb.positive coinB List.mem_cons_self
      obtain ⟨hmin, hdenom⟩ := minCoin_spec heq
      rw [if_pos heq, if_neg (by rw [hmin]; omega)]
      constructor
      · rw [List.map_cons, List.map_cons, hdenom]
        exact hsub.cons_cons _
      · intro denom
        rw [amountOf_cons, amountOf_cons, amountOf_cons coinB, hmin, hdenom, hamounts, ← heq]
        split <;> rfl
    · obtain ⟨hsub, hamounts⟩ := ih hb.tail
      have hgt : coinB.denom < coinA.denom := lt_of_le_of_ne (not_lt.mp hlt) (Ne.symm heq)
      rw [if_neg heq]
      refine ⟨hsub, fun denom => ?_⟩
      rw [hamounts, amountOf_cons coinB]
      split
      case isTrue hdenom =>
        subst hdenom
        rw [ha.amountOf_eq_zero_of_lt hgt, Nat.zero_min, Nat.zero_min]
      case isFalse => rfl

theorem minCoinsLoop_spec (ha : Valid a) (hb : Valid b) :
    ((minCoinsLoop a b).map Coin.denom).Sublist (a.map Coin.denom) ∧
      ∀ denom, amountOf (minCoinsLoop a b) denom = min (amountOf a denom) (amountOf b denom) := by
  induction a generalizing b with
  | nil => exact ⟨List.nil_sublist _, fun denom => (Nat.zero_min _).symm⟩
  | cons coinA a ih => exact minCoinsFrom_spec ha (fun b hb => ih ha.tail hb) hb

theorem minCoins_spec (hops : ops.Lawful) (ha : Valid a) (hb : Valid b)
    (h : minCoins ops a b = some out) :
    Valid out ∧ ∀ denom, amountOf out denom = min (amountOf a denom) (amountOf b denom) := by
  obtain ⟨hsub, hamounts⟩ := minCoinsLoop_spec ha hb
  obtain ⟨hout, hsame⟩ := hops.newCoins (ha.distinct.sublist hsub) h
  exact ⟨hout, fun denom => (hsame denom).trans (hamounts denom)⟩

theorem mulCoins_spec (hops : ops.Lawful) (ha : Valid a) {q : ℚ} (hq : 0 ≤ q)
    (h : mulCoins ops a q = some out) :
    Valid out ∧ ∀ denom, amountOf out denom = ⌊q * amountOf a denom⌋₊ := by
  obtain ⟨coins, hcoins, h⟩ := Option.bind_eq_some_iff.mp h
  obtain ⟨hdenoms, hamounts⟩ := amountOf_mapM (g := fun amount => ⌊q * amount⌋₊) (by simp)
    (fun _ _ => hops.mulTruncate hq) hcoins
  have hdistinct : Distinct coins := by
    unfold Distinct
    rw [hdenoms]
    exact ha.distinct
  obtain ⟨hout, hsame⟩ := hops.newCoins (hdistinct.filter _) h
  refine ⟨hout, fun denom => ?_⟩
  rw [hsame, amountOf_filter_pos coins hdistinct, hamounts]

/-- Without smoothing blocks nothing is handed out. -/
def shareOf (amount : ℕ) (blocks : ℤ) : ℕ := if 0 < blocks then rateOf amount blocks else 0

theorem rewardRate_spec (hops : ops.Lawful) (ha : Valid a) {blocks : ℤ}
    (h : rewardRate ops a blocks = some out) :
    Valid out ∧ ∀ denom, amountOf out denom = shareOf (amountOf a denom) blocks := by
  unfold rewardRate at h
  unfold shareOf
  split_ifs at h with hblocks
  · obtain ⟨coins, hcoins, h⟩ := Option.bind_eq_some_iff.mp h
    obtain ⟨hdenoms, hamounts⟩ := amountOf_mapM (f := fun amount => some (rateOf amount blocks))
      (g := fun amount => rateOf amount blocks) rfl (fun _ _ h => (Option.some.inj h).symm) hcoins
    have hdistinct : Distinct coins := by
      unfold Distinct
      rw [hdenoms]
      exact ha.distinct.filter _
    obtain ⟨hout, hsame⟩ := hops.newCoins hdistinct h
    refine ⟨hout, fun denom => ?_⟩
    rw [hsame, hamounts, amountOf_filter_pos a ha.distinct, if_pos hblocks]
  · have hdistinct : Distinct [] := List.nodup_nil
    obtain ⟨hout, hsame⟩ := hops.newCoins hdistinct h
    refine ⟨hout, fun denom => ?_⟩
    rw [hsame, if_neg hblocks, amountOf_nil]

end CoinLoops

end AgoricSdk.Vbank
