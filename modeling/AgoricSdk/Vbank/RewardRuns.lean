import AgoricSdk.Cosmos.SdkCoins
import AgoricSdk.Vbank.Rewards

/-!
Rewards over whole runs: what is given is in the pool until it is sent, and what one epoch
sends of the amount fixed for it.
-/

namespace AgoricSdk.Vbank

open Cosmos

variable {B : Type}

structure System.Valid (s : System B) : Prop where
  pool : Cosmos.Valid s.state.rewardPool
  blockAmount : Cosmos.Valid s.state.rewardBlockAmount

/-- The block of height `s.height`, whose cycle index is that of the last epoch. -/
def System.cycleIndex (s : System B) : ℤ := s.height - s.state.lastRewardDistributionBlock

def System.pool (s : System B) (denom : String) : ℕ := amountOf s.state.rewardPool denom

/-- The amount an epoch beginning now would fix. -/
def System.toDistribute (s : System B) (params : Params) (denom : String) : ℕ :=
  ⌊params.perEpochRewardFraction * s.pool denom⌋₊

/-- What a finished block did with the rewards. -/
structure Distributed (k : Keeper B) (params : Params) (s t : System B) (sent : List Coin) :
    Prop where
  valid : t.Valid
  height : t.height = s.height
  kept : s.cycleIndex < params.rewardEpochDurationBlocks →
    t.state.lastRewardDistributionBlock = s.state.lastRewardDistributionBlock ∧
      t.state.rewardBlockAmount = s.state.rewardBlockAmount
  fixed : params.rewardEpochDurationBlocks ≤ s.cycleIndex →
    t.state.lastRewardDistributionBlock = s.height ∧
      ∀ denom, amountOf t.state.rewardBlockAmount denom =
        shareOf (s.toDistribute params denom) params.rewardSmoothingBlocks
  share (denom : String) : amountOf sent denom =
    if s.cycleIndex < params.rewardSmoothingBlocks then
      min (amountOf t.state.rewardBlockAmount denom) (s.pool denom)
    else 0
  pool (denom : String) : t.pool denom + amountOf sent denom = s.pool denom
  balance (account denom : String) :
    k.bank.balance t.bank account denom +
        (if account = k.bank.moduleAddress ModuleName then amountOf sent denom else 0) =
      k.bank.balance s.bank account denom +
        (if account = k.bank.moduleAddress k.rewardDistributorName then amountOf sent denom
          else 0)

structure Keeper.Lawful (k : Keeper B) : Prop where
  coins : k.coins.Lawful
  bank : k.bank.Lawful

theorem beginEpoch_spec {k : Keeper B} (hk : k.coins.Lawful) {params : Params}
    (hparams : params.validateBasic = .ok ()) {s : System B} (hs : s.Valid) {state : State}
    (h : beginEpoch k params s.height s.state = some state) :
    state.rewardPool = s.state.rewardPool ∧ Cosmos.Valid state.rewardBlockAmount ∧
      (s.cycleIndex < params.rewardEpochDurationBlocks → state = s.state) ∧
      (params.rewardEpochDurationBlocks ≤ s.cycleIndex →
        state.lastRewardDistributionBlock = s.height ∧
          ∀ denom, amountOf state.rewardBlockAmount denom =
            shareOf (s.toDistribute params denom) params.rewardSmoothingBlocks) := by
  obtain ⟨-, hfraction, -, hsmoothing, -⟩ := Params.validateBasic_eq_ok hparams
  unfold beginEpoch at h
  split at h
  case isFalse hlt =>
    cases h
    exact ⟨rfl, hs.blockAmount, fun _ => rfl, fun hle => absurd hle hlt⟩
  case isTrue hle =>
    obtain ⟨toDistribute, hmul, h⟩ := Option.bind_eq_some_iff.mp h
    obtain ⟨rate, hrate, h⟩ := Option.bind_eq_some_iff.mp h
    cases h
    obtain ⟨hvalid, hamounts⟩ := mulCoins_spec hk hs.pool hfraction hmul
    obtain ⟨hrateValid, hrates⟩ := rewardRate_spec hk hvalid hrate
    refine ⟨rfl, hrateValid, fun hlt => absurd hle (not_le.mpr hlt), fun _ => ⟨rfl, ?_⟩⟩
    intro denom
    rw [hrates, hamounts, hsmoothing]
    rfl

theorem distributeRewards_spec {k : Keeper B} (hk : k.Lawful) {params : Params}
    (hparams : params.validateBasic = .ok ()) {s t : System B} (hs : s.Valid) {sent : List Coin}
    (h : distributeRewards k params s = some (sent, t)) : Distributed k params s t sent := by
  obtain ⟨-, -, -, hsmoothing, -⟩ := Params.validateBasic_eq_ok hparams
  obtain ⟨state, hstate, h⟩ := Option.bind_eq_some_iff.mp h
  obtain ⟨hpool, hamount, hkept, hfixed⟩ := beginEpoch_spec hk.coins hparams hs hstate
  rw [hsmoothing] at h
  split at h
  case isTrue hover =>
    change params.rewardSmoothingBlocks ≤ s.cycleIndex at hover
    cases h
    constructor
    · exact ⟨by rw [hpool]; exact hs.pool, hamount⟩
    · rfl
    · intro hlt
      cases hkept hlt
      exact ⟨rfl, rfl⟩
    · exact hfixed
    · intro denom
      rw [if_neg (not_lt.mpr hover)]
      rfl
    · intro denom
      simp [System.pool, hpool]
    · intro account denom
      simp
  case isFalse hopen =>
    change ¬ params.rewardSmoothingBlocks ≤ s.cycleIndex at hopen
    obtain ⟨xfer, hxfer, h⟩ := Option.bind_eq_some_iff.mp h
    obtain ⟨bank, hbank, h⟩ := Option.bind_eq_some_iff.mp h
    obtain ⟨rewardPool, hsub, h⟩ := Option.bind_eq_some_iff.mp h
    cases h
    rw [hpool] at hxfer hsub
    obtain ⟨hxferValid, hmin⟩ := minCoins_spec hk.coins hamount hs.pool hxfer
    obtain ⟨hleft, hsubAmounts⟩ := hk.coins.sub hs.pool hxferValid hsub
    constructor
    · exact ⟨hleft, hamount⟩
    · rfl
    · intro hlt
      cases hkept hlt
      exact ⟨rfl, rfl⟩
    · exact hfixed
    · intro denom
      rw [if_pos (not_le.mp hopen), hmin]
      rfl
    · exact hsubAmounts
    · intro account denom
      split at hbank
      case isTrue hzero =>
        cases hbank
        rw [amountOf_of_isZero hzero, ite_self, ite_self]
      case isFalse => exact hk.bank.sent hbank account denom

/-- What a gift did. -/
structure Given (k : Keeper B) (s t : System B) (given : List Coin) : Prop where
  valid : t.Valid
  height : t.height = s.height
  last : t.state.lastRewardDistributionBlock = s.state.lastRewardDistributionBlock
  blockAmount : t.state.rewardBlockAmount = s.state.rewardBlockAmount
  pool (denom : String) : t.pool denom = s.pool denom + amountOf given denom
  balance (account denom : String) :
    k.bank.balance t.bank account denom = k.bank.balance s.bank account denom +
      (if account = k.bank.moduleAddress ModuleName then amountOf given denom else 0)

theorem giveToRewardDistributor_spec {k : Keeper B} (hk : k.Lawful) {s t : System B}
    (hs : s.Valid) {denom : String} {value : ℤ} {given : List Coin}
    (h : giveToRewardDistributor k denom value s = some (given, t)) : Given k s t given := by
  obtain ⟨amount, -, h⟩ := Option.bind_eq_some_iff.mp h
  obtain ⟨coins, hcoins, h⟩ := Option.bind_eq_some_iff.mp h
  obtain ⟨bank, hbank, h⟩ := Option.bind_eq_some_iff.mp h
  obtain ⟨rewardPool, hadd, h⟩ := Option.bind_eq_some_iff.mp h
  cases h
  have hdistinct : Distinct [⟨denom, amount⟩] := List.nodup_singleton _
  obtain ⟨hvalid, -⟩ := hk.coins.newCoins hdistinct hcoins
  obtain ⟨hpool, hamounts⟩ := hk.coins.add hs.pool hvalid hadd
  constructor
  · exact ⟨hpool, hs.blockAmount⟩
  · rfl
  · rfl
  · rfl
  · exact hamounts
  · exact hk.bank.minted hbank

inductive Event where
  | give (denom : String) (value : ℤ)
  | endBlock (params : Params)

structure Receipt where
  given : List Coin := []
  sent : List Coin := []
  poolBefore : List Coin

/-- A gift that fails is an error to its caller; a block that fails stops the chain. -/
def Event.step (k : Keeper B) (s : System B) : Event → Option (Receipt × System B)
  | .give denom value =>
    match giveToRewardDistributor k denom value s with
    | some (given, t) => some ({ given, poolBefore := s.state.rewardPool }, t)
    | none => some ({ poolBefore := s.state.rewardPool }, s)
  | .endBlock params => do
    let (sent, t) ← Vbank.endBlock k params s
    return ({ sent, poolBefore := s.state.rewardPool }, t)

def run (k : Keeper B) (s : System B) : List Event → Option (List Receipt × System B)
  | [] => some ([], s)
  | event :: events => do
    let (receipt, t) ← event.step k s
    let (receipts, u) ← run k t events
    return (receipt :: receipts, u)

def totalGiven (receipts : List Receipt) (denom : String) : ℕ :=
  (receipts.map fun r => amountOf r.given denom).sum

def totalSent (receipts : List Receipt) (denom : String) : ℕ :=
  (receipts.map fun r => amountOf r.sent denom).sum

/-- Parameters pass validation before they are stored. -/
def Event.Admitted : Event → Prop
  | .give .. => True
  | .endBlock params => params.validateBasic = .ok ()

section Conservation

variable {k : Keeper B}

/-- Coins come into the pool and the module's account together, and leave together. -/
structure Conserves (k : Keeper B) (s t : System B) (given sent : String → ℕ) : Prop where
  pool (denom : String) : t.pool denom + sent denom = s.pool denom + given denom
  balance (account denom : String) :
    k.bank.balance t.bank account denom +
        (if account = k.bank.moduleAddress ModuleName then sent denom else 0) =
      k.bank.balance s.bank account denom +
        (if account = k.bank.moduleAddress ModuleName then given denom else 0) +
        (if account = k.bank.moduleAddress k.rewardDistributorName then sent denom else 0)

theorem Conserves.trans {s t u : System B} {given sent given' sent' : String → ℕ}
    (h : Conserves k s t given sent) (h' : Conserves k t u given' sent') :
    Conserves k s u (fun denom => given denom + given' denom)
      (fun denom => sent denom + sent' denom) where
  pool denom := by
    have hfirst := h.pool denom
    have hsecond := h'.pool denom
    omega
  balance account denom := by
    have hfirst := h.balance account denom
    have hsecond := h'.balance account denom
    split_ifs at hfirst hsecond ⊢ <;> omega

theorem Event.step_spec (hk : k.Lawful) {s t : System B} (hs : s.Valid) {event : Event}
    (hevent : event.Admitted) {receipt : Receipt} (h : event.step k s = some (receipt, t)) :
    t.Valid ∧ receipt.poolBefore = s.state.rewardPool ∧
      (∀ denom, amountOf receipt.sent denom ≤ amountOf receipt.poolBefore denom) ∧
      Conserves k s t (amountOf receipt.given) (amountOf receipt.sent) := by
  cases event with
  | give denom value =>
    unfold Event.step at h
    dsimp only at h
    split at h
    · rename_i given t' hgive
      cases h
      have hgiven := giveToRewardDistributor_spec hk hs hgive
      refine ⟨hgiven.valid, rfl, fun _ => Nat.zero_le _, ?_, ?_⟩
      · intro d
        simp [hgiven.pool]
      · intro account d
        simp [hgiven.balance]
    · cases h
      refine ⟨hs, rfl, fun _ => Nat.zero_le _, ?_, ?_⟩
      · intro d
        simp
      · intro account d
        simp
  | endBlock params =>
    obtain ⟨⟨sent, t'⟩, hblock, h⟩ := Option.bind_eq_some_iff.mp h
    cases h
    have hdone := distributeRewards_spec hk hevent (s := { s with height := s.height + 1 })
      ⟨hs.pool, hs.blockAmount⟩ hblock
    refine ⟨hdone.valid, rfl, fun d => ?_, ?_, ?_⟩
    · have hpool := hdone.pool d
      unfold System.pool at hpool
      dsimp only at hpool ⊢
      omega
    · intro d
      exact hdone.pool d
    · intro account d
      simpa using hdone.balance account d

theorem run_spec (hk : k.Lawful) {events : List Event} (hevents : ∀ event ∈ events, event.Admitted)
    {s u : System B} (hs : s.Valid) {receipts : List Receipt}
    (h : run k s events = some (receipts, u)) :
    u.Valid ∧
      (∀ r ∈ receipts, ∀ denom, amountOf r.sent denom ≤ amountOf r.poolBefore denom) ∧
      Conserves k s u (totalGiven receipts) (totalSent receipts) := by
  induction events generalizing s receipts with
  | nil =>
    cases h
    refine ⟨hs, nofun, fun denom => rfl, fun account denom => ?_⟩
    simp [totalGiven, totalSent]
  | cons event events ih =>
    obtain ⟨hhead, htail⟩ := List.forall_mem_cons.mp hevents
    obtain ⟨⟨receipt, t⟩, hstep, h⟩ := Option.bind_eq_some_iff.mp h
    obtain ⟨⟨rest, u'⟩, hrun, h⟩ := Option.bind_eq_some_iff.mp h
    cases h
    obtain ⟨hvalid, -, hle, hconserves⟩ := Event.step_spec hk hs hhead hstep
    obtain ⟨huvalid, hles, hrest⟩ := ih htail hvalid hrun
    exact ⟨huvalid, List.forall_mem_cons.mpr ⟨hle, hles⟩, hconserves.trans hrest⟩

end Conservation

section Epoch

variable {k : Keeper B} {params : Params}

theorem run_append {k : Keeper B} {s u : System B} {first second : List Event}
    {receipts : List Receipt} (h : run k s (first ++ second) = some (receipts, u)) :
    ∃ t r r', run k s first = some (r, t) ∧ run k t second = some (r', u) ∧ receipts = r ++ r' := by
  induction first generalizing s receipts with
  | nil => exact ⟨s, [], receipts, rfl, h, rfl⟩
  | cons event first ih =>
    obtain ⟨⟨receipt, s'⟩, hstep, h⟩ := Option.bind_eq_some_iff.mp h
    obtain ⟨⟨rest, u'⟩, hrun, h⟩ := Option.bind_eq_some_iff.mp h
    cases h
    obtain ⟨t, r, r', hfirst, hsecond, rfl⟩ := ih hrun
    refine ⟨t, receipt :: r, r', ?_, hsecond, rfl⟩
    simp [run, hstep, hfirst]

theorem totalSent_append (first second : List Receipt) (denom : String) :
    totalSent (first ++ second) denom = totalSent first denom + totalSent second denom := by
  simp [totalSent]

/-- The gifts between two blocks. -/
def gifts (given : List (String × ℤ)) : List Event := given.map fun g => .give g.1 g.2

/-- Blocks with the same parameters, after the gifts before each. -/
def blocks (params : Params) (given : List (List (String × ℤ))) : List Event :=
  given.flatMap fun g => gifts g ++ [.endBlock params]

theorem run_gifts (hk : k.Lawful) {given : List (String × ℤ)} {s u : System B} (hs : s.Valid)
    {receipts : List Receipt} (h : run k s (gifts given) = some (receipts, u)) :
    u.Valid ∧ u.height = s.height ∧
      u.state.lastRewardDistributionBlock = s.state.lastRewardDistributionBlock ∧
      u.state.rewardBlockAmount = s.state.rewardBlockAmount ∧
      ∀ denom, s.pool denom ≤ u.pool denom ∧ totalSent receipts denom = 0 := by
  induction given generalizing s receipts with
  | nil =>
    cases h
    exact ⟨hs, rfl, rfl, rfl, fun denom => ⟨le_rfl, rfl⟩⟩
  | cons g given ih =>
    obtain ⟨⟨receipt, t⟩, hstep, h⟩ := Option.bind_eq_some_iff.mp h
    obtain ⟨⟨rest, u'⟩, hrun, h⟩ := Option.bind_eq_some_iff.mp h
    cases h
    have hone : t.Valid ∧ t.height = s.height ∧
        t.state.lastRewardDistributionBlock = s.state.lastRewardDistributionBlock ∧
        t.state.rewardBlockAmount = s.state.rewardBlockAmount ∧
        ∀ denom, s.pool denom ≤ t.pool denom ∧ amountOf receipt.sent denom = 0 := by
      unfold Event.step at hstep
      dsimp only at hstep
      split at hstep
      · rename_i coins t' hgive
        cases hstep
        have hgiven := giveToRewardDistributor_spec hk hs hgive
        refine ⟨hgiven.valid, hgiven.height, hgiven.last, hgiven.blockAmount, fun denom => ?_⟩
        exact ⟨by rw [hgiven.pool]; omega, rfl⟩
      · cases hstep
        exact ⟨hs, rfl, rfl, rfl, fun denom => ⟨le_rfl, rfl⟩⟩
    obtain ⟨hvalid, hheight, hlast, hamount, hpool⟩ := hone
    obtain ⟨huvalid, huheight, hulast, huamount, hupool⟩ := ih hvalid hrun
    refine ⟨huvalid, huheight.trans hheight, hulast.trans hlast, huamount.trans hamount, ?_⟩
    intro denom
    refine ⟨(hpool denom).1.trans (hupool denom).1, ?_⟩
    have hrest := (hupool denom).2
    unfold totalSent at hrest ⊢
    rw [List.map_cons, List.sum_cons, hrest, (hpool denom).2]

theorem run_blocks (hk : k.Lawful) (hparams : params.validateBasic = .ok ())
    {given : List (List (String × ℤ))} {s u : System B} (hs : s.Valid)
    (hepoch : ∀ i < given.length, s.cycleIndex + i + 1 < params.rewardEpochDurationBlocks)
    {receipts : List Receipt} (h : run k s (blocks params given) = some (receipts, u))
    (denom : String) :
    let share := amountOf s.state.rewardBlockAmount denom
    let shares := min given.length (params.rewardSmoothingBlocks - 1 - s.cycleIndex).toNat
    min (shares * share) (s.pool denom) ≤ totalSent receipts denom ∧
      totalSent receipts denom ≤ shares * share := by
  induction given generalizing s receipts with
  | nil =>
    cases h
    simp [totalSent]
  | cons g given ih =>
    obtain ⟨t, r₀, r₁, hfirst, hrest, rfl⟩ := run_append h
    obtain ⟨s₁, r₂, r₃, hgifts, hblock, rfl⟩ := run_append hfirst
    obtain ⟨hvalid, hheight, hlast, hamount, hpool⟩ := run_gifts hk hs hgifts
    obtain ⟨⟨receipt, t₁⟩, hstep, hend⟩ := Option.bind_eq_some_iff.mp hblock
    cases hend
    obtain ⟨⟨sent, t'⟩, hdistribute, hreceipt⟩ := Option.bind_eq_some_iff.mp hstep
    cases hreceipt
    have hdone := distributeRewards_spec hk hparams (s := { s₁ with height := s₁.height + 1 })
      ⟨hvalid.pool, hvalid.blockAmount⟩ hdistribute
    have hindex : ({ s₁ with height := s₁.height + 1 } : System B).cycleIndex =
        s.cycleIndex + 1 := by
      simp only [System.cycleIndex, hheight, hlast]
      ring
    have hwithin := hepoch 0 (Nat.zero_lt_succ _)
    obtain ⟨hlast', hamount'⟩ := hdone.kept (by rw [hindex]; push_cast at hwithin; omega)
    have hindex' : t.cycleIndex = s.cycleIndex + 1 := by
      rw [← hindex]
      simp only [System.cycleIndex, hdone.height, hlast']
    have hlater := ih hdone.valid (fun i hi => by
      have hnext := hepoch (i + 1) (Nat.succ_lt_succ hi)
      rw [hindex']
      push_cast at hnext
      omega) hrest
    have hsent := hdone.share denom
    have hleft := hdone.pool denom
    obtain ⟨hgained, hnone⟩ := hpool denom
    change t.pool denom + amountOf sent denom = s₁.pool denom at hleft
    rw [hindex, hamount', hamount] at hsent
    change amountOf sent denom = if s.cycleIndex + 1 < params.rewardSmoothingBlocks then
      min (amountOf s.state.rewardBlockAmount denom) (s₁.pool denom) else 0 at hsent
    rw [hamount', hamount, hindex'] at hlater
    have htotal : totalSent (r₂ ++ [{ sent, poolBefore := s₁.state.rewardPool }] ++ r₁) denom =
        amountOf sent denom + totalSent r₁ denom := by
      rw [totalSent_append, totalSent_append, hnone]
      simp [totalSent]
    dsimp only at hlater ⊢
    rw [htotal]
    split at hsent
    case isTrue hopen =>
      have hshares : min (g :: given).length
          (params.rewardSmoothingBlocks - 1 - s.cycleIndex).toNat =
            min given.length (params.rewardSmoothingBlocks - 1 - (s.cycleIndex + 1)).toNat + 1 := by
        rw [List.length_cons]
        omega
      rw [hshares, Nat.add_mul, Nat.one_mul]
      omega
    case isFalse hover =>
      have hshares : (params.rewardSmoothingBlocks - 1 - s.cycleIndex).toNat = 0 := by omega
      have hshares' : (params.rewardSmoothingBlocks - 1 - (s.cycleIndex + 1)).toNat = 0 := by
        omega
      rw [hshares'] at hlater
      rw [hshares]
      simp only [Nat.min_zero, Nat.zero_mul] at hlater ⊢
      omega

/-- A duration of no blocks has the same meaning as one block. -/
def Params.epochBlocks (p : Params) : ℕ := max p.rewardEpochDurationBlocks.toNat 1

/-- How many blocks send a share in the epoch that begins with the next block. -/
def System.shares (s : System B) (params : Params) : ℕ :=
  (if s.height + 1 - s.state.lastRewardDistributionBlock < params.rewardSmoothingBlocks then 1
    else 0) +
    min (params.epochBlocks - 1) (params.rewardSmoothingBlocks - 1).toNat

end Epoch

section Example

/-- A module is its own address; every mint succeeds. -/
def mapBank : BankKeeper (String → String → ℕ) where
  balance b := b
  moduleAddress moduleName := moduleName
  mintCoins b moduleName coins := some fun account denom =>
    b account denom + (if account = moduleName then amountOf coins denom else 0)
  sendCoinsFromModuleToModule b sender recipient coins :=
    if ∀ denom ∈ coins.map Coin.denom, amountOf coins denom ≤ b sender denom then
      some fun account denom =>
        b account denom - (if account = sender then amountOf coins denom else 0) +
          (if account = recipient then amountOf coins denom else 0)
    else none

theorem moved_amount {amount balance : ℕ} {p q : Prop} [Decidable p] [Decidable q]
    (h : p → amount ≤ balance) :
    balance - (if p then amount else 0) + (if q then amount else 0) + (if p then amount else 0) =
      balance + (if q then amount else 0) := by
  by_cases hp : p
  · have hle := h hp
    rw [if_pos hp]
    omega
  · rw [if_neg hp]
    rfl

theorem mapBank_lawful : mapBank.Lawful where
  minted h account denom := by
    cases h
    rfl
  sent {b b' sender recipient coins} h account denom := by
    unfold mapBank at h
    dsimp only at h
    split at h
    case isFalse => cases h
    case isTrue hall =>
      cases h
      apply moved_amount
      rintro rfl
      by_cases hmem : denom ∈ coins.map Coin.denom
      · exact hall denom hmem
      · rw [amountOf_of_not_mem hmem]
        exact Nat.zero_le _

def exampleKeeper : Keeper (String → String → ℕ) where
  coins := sdkCoins
  bank := mapBank
  rewardDistributorName := "fee_collector"

theorem exampleKeeper_lawful : exampleKeeper.Lawful := ⟨sdkCoins_lawful, mapBank_lawful⟩

def exampleSystem : System (String → String → ℕ) where
  bank _ _ := 0
  height := 9

def exampleParams : Params where
  rewardEpochDurationBlocks := 3
  rewardSmoothingBlocks := 2

/-- Rewards of 10 are given, and an epoch of three blocks hands them out over two. -/
def exampleEvents : List Event :=
  .give "uist" 10 :: .endBlock exampleParams :: blocks exampleParams [[], [.mk "ubld" 3]]

end Example

end AgoricSdk.Vbank
