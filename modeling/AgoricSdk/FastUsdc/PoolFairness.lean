import AgoricSdk.FastUsdc.PoolShareMath
import AgoricSdk.Lib.Transition

/-!
Who gains and who loses by what the pool computes. An operation is weighed at the worth
of a share before it: what its party gets less what it gives. All of this, and nothing
else, comes out of the worth of the shares outstanding after it.
-/

namespace AgoricSdk.FastUsdc

open ERTP

variable {β : Type}

theorem amounts_eq_ok {α : Type} {result : RatioResult β α} {a : α} :
    amounts result = .ok a ↔ result = .ok a :=
  mapError_ok_iff

inductive Operation (β : Type) where
  | deposit (proposal : DepositProposal β)
  | withdraw (proposal : WithdrawProposal β) (poolAlloc : Record String (NatAmount β))
      (encumberedBalance : NatAmount β)
  | repay (split : RepayAmountKWR β) (encumberedBalance : NatAmount β) (poolStats : PoolStats β)

/-- What an accepted operation moved between its party and the pool. -/
structure Receipt (β : Type) where
  before : ShareWorth β
  usdcIn : Nat := 0
  usdcOut : Nat := 0
  sharesIn : Nat := 0
  sharesOut : Nat := 0
  after : ShareWorth β
  deriving DecidableEq

namespace Receipt

/-- What the party got less what it gave, at the worth of a share before. -/
def profit (r : Receipt β) : ℚ :=
  (r.sharesOut - r.sharesIn) * r.before.toRat + r.usdcOut - r.usdcIn

def gain (r : Receipt β) : ℚ := max 0 r.profit

/-- What moved is what changed, and shares are left. -/
structure Balanced (r : Receipt β) : Prop where
  before_valid : r.before.Valid
  after_valid : r.after.Valid
  usdc : r.after.numerator.value + r.usdcOut = r.before.numerator.value + r.usdcIn
  shares : r.after.denominator.value + r.sharesIn = r.before.denominator.value + r.sharesOut

variable {r : Receipt β}

theorem Balanced.worth_after (h : r.Balanced) :
    r.after.toRat = r.before.toRat - r.profit / r.after.denominator.value := by
  have hafter := h.after_valid.ne_zero
  have hbefore := h.before_valid.ne_zero
  have husdc : (r.after.numerator.value : ℚ) = r.before.numerator.value + r.usdcIn - r.usdcOut := by
    rw [eq_sub_iff_add_eq]
    exact_mod_cast h.usdc
  have hshares : (r.after.denominator.value : ℚ) =
      r.before.denominator.value + r.sharesOut - r.sharesIn := by
    rw [eq_sub_iff_add_eq]
    exact_mod_cast h.shares
  have hworth : (r.before.numerator.value : ℚ) = r.before.toRat * r.before.denominator.value :=
    (div_mul_cancel₀ _ hbefore).symm
  have hprofit : (r.after.numerator.value : ℚ) =
      r.before.toRat * r.after.denominator.value - r.profit := by
    rw [husdc, hworth, hshares, profit]
    ring
  rw [Ratio.toRat, hprofit, sub_div, mul_div_cancel_right₀ _ hafter]

theorem Balanced.worth_lt_iff (h : r.Balanced) :
    r.after.toRat < r.before.toRat ↔ 0 < r.profit := by
  have hpos : (0 : ℚ) < r.after.denominator.value := Nat.cast_pos.mpr h.after_valid
  rw [h.worth_after, sub_lt_self_iff, div_pos_iff_of_pos_right hpos]

theorem Balanced.held_worth (h : r.Balanced) {held : Nat}
    (hheld : held ≤ r.after.denominator.value) :
    held * r.before.toRat ≤ held * r.after.toRat + r.gain := by
  have hpos : (0 : ℚ) < r.after.denominator.value := Nat.cast_pos.mpr h.after_valid
  have hheldQ : (held : ℚ) ≤ r.after.denominator.value := Nat.cast_le.mpr hheld
  have hshare : held * (r.profit / r.after.denominator.value) ≤ r.gain :=
    calc
      held * (r.profit / r.after.denominator.value)
          = held / r.after.denominator.value * r.profit := by ring
      _ ≤ held / r.after.denominator.value * r.gain := by
        apply mul_le_mul_of_nonneg_left
        · exact le_max_right ..
        · positivity
      _ ≤ 1 * r.gain := by
        apply mul_le_mul_of_nonneg_right
        · exact (div_le_one hpos).mpr hheldQ
        · exact le_max_left ..
      _ = r.gain := one_mul _
  rw [h.worth_after]
  linarith

end Receipt

/-- A share is worth a unit of USDC or more. -/
structure Sound (shareWorth : ShareWorth β) : Prop where
  valid : shareWorth.Valid
  backed : shareWorth.denominator.value ≤ shareWorth.numerator.value

theorem Sound.worth_pos {w : ShareWorth β} (h : Sound w) : 0 < w.toRat :=
  div_pos (Nat.cast_pos.mpr (h.valid.trans_le h.backed)) (Nat.cast_pos.mpr h.valid)

theorem makeParity_sound {usdc shares : β} {w : ShareWorth β}
    (h : makeParity usdc shares = .ok w) : Sound w := by
  obtain ⟨hpos, rfl⟩ := makeRatio_eq_ok.mp h
  exact ⟨hpos, le_rfl⟩

section Perform

variable [DecidableEq β]

def Operation.perform (shareWorth : ShareWorth β) : Operation β → PoolResult β (Receipt β)
  | .deposit proposal => do
    let post ← depositCalc shareWorth proposal
    return {
      before := shareWorth, after := post.shareWorth
      usdcIn := proposal.giveUSDC.value, sharesOut := post.payout.value }
  | .withdraw proposal poolAlloc encumberedBalance => do
    let post ← withdrawCalc shareWorth proposal poolAlloc encumberedBalance
    return {
      before := shareWorth, after := post.shareWorth
      sharesIn := proposal.givePoolShare.value, usdcOut := post.payout.value }
  | .repay split encumberedBalance poolStats => do
    let post ← repayCalc shareWorth split encumberedBalance poolStats
    return { before := shareWorth, after := post.shareWorth, usdcIn := split.PoolFee.value }

/-- The most that rounding to the nearest leaves to the party: half a share, half a unit. -/
def Operation.slack (shareWorth : ShareWorth β) : Operation β → ℚ
  | .deposit _ => shareWorth.toRat / 2
  | .withdraw .. => 1 / 2
  | .repay .. => 0

/-- What every accepted operation comes to. -/
structure Receipt.Fits (shareWorth : ShareWorth β) (op : Operation β) (r : Receipt β) : Prop where
  before : r.before = shareWorth
  balanced : r.Balanced
  after : Sound r.after
  profit_le : r.profit ≤ op.slack shareWorth

theorem deposit_fits {w : ShareWorth β} {proposal : DepositProposal β} {r : Receipt β}
    (hw : Sound w) (h : (Operation.deposit proposal).perform w = .ok r) :
    r.Fits w (.deposit proposal) := by
  obtain ⟨post, hpost, hr⟩ := bind_eq_ok.mp h
  cases hr
  obtain ⟨_, -, hpost⟩ := bind_eq_ok.mp hpost
  obtain ⟨shares, hshares, hpost⟩ := bind_eq_ok.mp hpost
  obtain ⟨_, -, hpost⟩ := bind_eq_ok.mp hpost
  obtain ⟨outstanding, houtstanding, hpost⟩ := bind_eq_ok.mp hpost
  obtain ⟨balance, hbalance, hpost⟩ := bind_eq_ok.mp hpost
  obtain ⟨worth, hworth, hpost⟩ := bind_eq_ok.mp hpost
  cases hpost
  obtain ⟨-, -, hshares⟩ := (divideHelper_eq_ok natSafeMath.bankersDivide_divides).mp
    (amounts_eq_ok.mp hshares)
  obtain ⟨-, rfl⟩ := NatAmount.add_eq_ok.mp (amounts_eq_ok.mp houtstanding)
  obtain ⟨-, rfl⟩ := NatAmount.add_eq_ok.mp (amounts_eq_ok.mp hbalance)
  obtain ⟨hpos, rfl⟩ := makeRatio_eq_ok.mp (amounts_eq_ok.mp hworth)
  have hvalue := hw.worth_pos
  have hrounds : RoundsHalfEven ((proposal.giveUSDC.value : ℚ) / w.toRat) shares.value := by
    rw [hshares]
    exact roundsHalfEven_roundHalfEven (by positivity)
  have hle : shares.value ≤ proposal.giveUSDC.value := by
    apply hrounds.le_of_le_natCast
    apply div_le_self (Nat.cast_nonneg _)
    rw [Ratio.toRat, one_le_div (Nat.cast_pos.mpr hw.valid)]
    exact_mod_cast hw.backed
  constructor
  · rfl
  · exact ⟨hw.valid, hpos, rfl, rfl⟩
  · exact ⟨hpos, Nat.add_le_add hw.backed hle⟩
  · have hnear := hrounds.sub_half_le
    rw [le_div_iff₀ hvalue] at hnear
    simp only [Receipt.profit, Operation.slack, Nat.cast_zero]
    linarith

theorem withdraw_fits {w : ShareWorth β} {proposal : WithdrawProposal β}
    {poolAlloc : Record String (NatAmount β)} {encumberedBalance : NatAmount β} {r : Receipt β}
    (hw : Sound w)
    (h : (Operation.withdraw proposal poolAlloc encumberedBalance).perform w = .ok r) :
    r.Fits w (.withdraw proposal poolAlloc encumberedBalance) := by
  obtain ⟨post, hpost, hr⟩ := bind_eq_ok.mp h
  cases hr
  obtain ⟨_, -, hpost⟩ := bind_eq_ok.mp hpost
  obtain ⟨_, -, hpost⟩ := bind_eq_ok.mp hpost
  obtain ⟨_, -, hpost⟩ := bind_eq_ok.mp hpost
  obtain ⟨payout, hpayout, hpost⟩ := bind_eq_ok.mp hpost
  obtain ⟨_, -, hpost⟩ := bind_eq_ok.mp hpost
  obtain ⟨_, -, hpost⟩ := bind_eq_ok.mp hpost
  obtain ⟨_, -, hpost⟩ := bind_eq_ok.mp hpost
  obtain ⟨_, -, hpost⟩ := bind_eq_ok.mp hpost
  obtain ⟨_, -, hpost⟩ := bind_eq_ok.mp hpost
  obtain ⟨_, -, hpost⟩ := bind_eq_ok.mp hpost
  obtain ⟨balance, hbalance, hpost⟩ := bind_eq_ok.mp hpost
  obtain ⟨outstanding, houtstanding, hpost⟩ := bind_eq_ok.mp hpost
  obtain ⟨worth, hworth, hpost⟩ := bind_eq_ok.mp hpost
  cases hpost
  obtain ⟨-, -, hpayout⟩ := (multiplyHelper_eq_ok natSafeMath.bankersDivide_divides).mp
    (amounts_eq_ok.mp hpayout)
  obtain ⟨-, hbalanceLe, rfl⟩ := NatAmount.subtract_eq_ok.mp (amounts_eq_ok.mp hbalance)
  obtain ⟨-, hsharesLe, rfl⟩ := NatAmount.subtract_eq_ok.mp (amounts_eq_ok.mp houtstanding)
  obtain ⟨hpos, rfl⟩ := makeRatio_eq_ok.mp (amounts_eq_ok.mp hworth)
  have hvalue := hw.worth_pos
  have hrounds : RoundsHalfEven (proposal.givePoolShare.value * w.toRat) payout.value := by
    rw [hpayout]
    exact roundsHalfEven_roundHalfEven (by positivity)
  -- The shares left are worth no less than a unit each, and that many units are a whole number.
  have hle : payout.value ≤
      w.numerator.value - (w.denominator.value - proposal.givePoolShare.value) := by
    apply hrounds.le_of_le_natCast
    have hone : 1 ≤ w.toRat := by
      rw [Ratio.toRat, one_le_div (Nat.cast_pos.mpr hw.valid)]
      exact_mod_cast hw.backed
    have hbalanceEq : (w.numerator.value : ℚ) = w.toRat * w.denominator.value :=
      (div_mul_cancel₀ _ hw.valid.ne_zero).symm
    have hgive : (proposal.givePoolShare.value : ℚ) ≤ w.denominator.value :=
      Nat.cast_le.mpr hsharesLe
    have hbacked := hw.backed
    rw [Nat.cast_sub (by omega), Nat.cast_sub hsharesLe, hbalanceEq]
    nlinarith
  have hbacked := hw.backed
  dsimp only at hpos
  constructor
  · rfl
  · constructor
    · exact hw.valid
    · exact hpos
    · dsimp only
      omega
    · dsimp only
      omega
  · constructor
    · exact hpos
    · dsimp only
      omega
  · have hnear := hrounds.sub_half_le
    simp only [Receipt.profit, Operation.slack, Nat.cast_zero]
    linarith

theorem repay_fits {w : ShareWorth β} {split : RepayAmountKWR β} {encumberedBalance : NatAmount β}
    {poolStats : PoolStats β} {r : Receipt β} (hw : Sound w)
    (h : (Operation.repay split encumberedBalance poolStats).perform w = .ok r) :
    r.Fits w (.repay split encumberedBalance poolStats) := by
  obtain ⟨post, hpost, hr⟩ := bind_eq_ok.mp h
  cases hr
  obtain ⟨_, -, hpost⟩ := bind_eq_ok.mp hpost
  obtain ⟨_, -, hpost⟩ := bind_eq_ok.mp hpost
  obtain ⟨worth, hworth, hpost⟩ := bind_eq_ok.mp hpost
  obtain ⟨_, -, hpost⟩ := bind_eq_ok.mp hpost
  obtain ⟨_, -, hpost⟩ := bind_eq_ok.mp hpost
  obtain ⟨_, -, hpost⟩ := bind_eq_ok.mp hpost
  obtain ⟨_, -, hpost⟩ := bind_eq_ok.mp hpost
  obtain ⟨_, -, hpost⟩ := bind_eq_ok.mp hpost
  cases hpost
  obtain ⟨balance, hbalance, hworth⟩ := bind_eq_ok.mp hworth
  obtain ⟨-, rfl⟩ := NatAmount.add_eq_ok.mp (amounts_eq_ok.mp hbalance)
  obtain ⟨hpos, rfl⟩ := makeRatio_eq_ok.mp (amounts_eq_ok.mp hworth)
  constructor
  · rfl
  · exact ⟨hw.valid, hpos, rfl, rfl⟩
  · exact ⟨hpos, hw.backed.trans (Nat.le_add_right ..)⟩
  · simp [Receipt.profit, Operation.slack]

theorem perform_fits {w : ShareWorth β} {op : Operation β} {r : Receipt β} (hw : Sound w)
    (h : op.perform w = .ok r) : r.Fits w op := by
  cases op with
  | deposit proposal => exact deposit_fits hw h
  | withdraw proposal poolAlloc encumberedBalance => exact withdraw_fits hw h
  | repay split encumberedBalance poolStats => exact repay_fits hw h

/-! ## Sequences of operations -/

def pool : TransitionSystem (ShareWorth β) (Operation β) where
  init shareWorth := ∃ usdc shares, makeParity usdc shares = .ok shareWorth
  step shareWorth op := (op.perform shareWorth).toOption.map Receipt.after

theorem sound_of_reachable {w : ShareWorth β}
    (h : pool.Reachable TransitionSystem.anyStep w) : Sound w := by
  apply h.invariant
  · rintro s ⟨usdc, shares, hparity⟩
    exact makeParity_sound hparity
  · intro s op t hs _ hstep
    obtain ⟨r, hr, rfl⟩ := Option.map_eq_some_iff.mp hstep
    have hperform : op.perform s = .ok r := by
      cases hresult : op.perform s with
      | error fault => simp [hresult, Except.toOption] at hr
      | ok r' =>
        rw [hresult] at hr
        cases hr
        rfl
    exact (perform_fits hs hperform).after

def Operation.isRepay : Operation β → Bool
  | .repay .. => true
  | .deposit _ | .withdraw .. => false

/-- Deposits and withdrawals by one provider: it gives back no more shares than it holds. -/
inductive ProviderRun : ShareWorth β → Nat → List (Receipt β) → ShareWorth β → Prop where
  | nil (w : ShareWorth β) (held : Nat) : ProviderRun w held [] w
  | cons {w w' : ShareWorth β} {held : Nat} {r : Receipt β} {rs : List (Receipt β)}
      (op : Operation β) : op.isRepay = false → op.perform w = .ok r → r.sharesIn ≤ held →
      ProviderRun r.after (held - r.sharesIn + r.sharesOut) rs w' →
      ProviderRun w held (r :: rs) w'

def usdcIn (rs : List (Receipt β)) : Nat := (rs.map Receipt.usdcIn).sum

def usdcOut (rs : List (Receipt β)) : Nat := (rs.map Receipt.usdcOut).sum

def gains (rs : List (Receipt β)) : ℚ := (rs.map Receipt.gain).sum

theorem ProviderRun.others {w w' : ShareWorth β} {held others : Nat} {rs : List (Receipt β)}
    (h : ProviderRun w held rs w') (hw : Sound w) (hshares : w.denominator.value = others + held) :
    Sound w' ∧ others ≤ w'.denominator.value ∧
      w'.numerator.value + usdcOut rs = w.numerator.value + usdcIn rs ∧
      others * w.toRat ≤ others * w'.toRat + gains rs := by
  induction h with
  | nil w held =>
    refine ⟨hw, ?_, ?_, ?_⟩
    · omega
    · simp [usdcOut, usdcIn]
    · simp [gains]
  | @cons w w' held r rs op _ hr hgive _ ih =>
    have hfits := perform_fits hw hr
    have hbefore := hfits.before
    have hmoved := hfits.balanced.shares
    have husdc := hfits.balanced.usdc
    rw [hbefore] at hmoved husdc
    obtain ⟨hsound, hothers, htotal, hworth⟩ := ih hfits.after (by omega)
    have hheld : others ≤ r.after.denominator.value := by omega
    have hstep := hfits.balanced.held_worth hheld
    rw [hbefore] at hstep
    refine ⟨hsound, hothers, ?_, ?_⟩
    · simp only [usdcOut, usdcIn, List.map_cons, List.sum_cons] at htotal ⊢
      omega
    · simp only [gains, List.map_cons, List.sum_cons] at hworth ⊢
      linarith

theorem ProviderRun.usdcOut_le {w w' : ShareWorth β} {rs : List (Receipt β)}
    (h : ProviderRun w 0 rs w') (hw : Sound w) : usdcOut rs ≤ usdcIn rs + gains rs := by
  obtain ⟨hsound, hothers, htotal, hworth⟩ := h.others hw (Nat.add_zero _).symm
  have hbefore : (w.numerator.value : ℚ) = w.denominator.value * w.toRat :=
    (mul_div_cancel₀ _ hw.valid.ne_zero).symm
  have hafter : (w.denominator.value : ℚ) * w'.toRat ≤ w'.numerator.value := by
    calc
      (w.denominator.value : ℚ) * w'.toRat ≤ w'.denominator.value * w'.toRat := by
        apply mul_le_mul_of_nonneg_right
        · exact_mod_cast hothers
        · exact hsound.worth_pos.le
      _ = w'.numerator.value := mul_div_cancel₀ _ hsound.valid.ne_zero
  have htotalQ : (w'.numerator.value : ℚ) + usdcOut rs = w.numerator.value + usdcIn rs := by
    exact_mod_cast htotal
  linarith

/-- Only a rounding in its own favour lets an operation cost the others, and only by
what it rounded. -/
theorem pool_shares_fair {w : ShareWorth β} (hw : pool.Reachable TransitionSystem.anyStep w) :
    (1 ≤ w.numerator.value ∧ 1 ≤ w.denominator.value) ∧
      (∀ op r, Operation.perform w op = .ok r →
        (1 ≤ r.after.numerator.value ∧ 1 ≤ r.after.denominator.value) ∧
          (∀ held ≤ r.after.denominator.value,
            held * w.toRat ≤ held * r.after.toRat + max 0 r.profit) ∧
          (r.after.toRat < w.toRat ↔ 0 < r.profit) ∧ r.profit ≤ op.slack w) ∧
      ∀ rs w', ProviderRun w 0 rs w' →
        usdcOut rs ≤ usdcIn rs + (rs.map fun r => max 0 r.profit).sum := by
  have hsound := sound_of_reachable hw
  have hpositive : ∀ {w : ShareWorth β}, Sound w →
      1 ≤ w.numerator.value ∧ 1 ≤ w.denominator.value :=
    fun h => ⟨h.valid.trans_le h.backed, h.valid⟩
  refine ⟨hpositive hsound, ?_, ?_⟩
  · intro op r hr
    have hfits := perform_fits hsound hr
    have hheld := fun held (h : held ≤ _) => hfits.balanced.held_worth h
    have hlt := hfits.balanced.worth_lt_iff
    rw [hfits.before] at hheld hlt
    exact ⟨hpositive hfits.after, hheld, hlt, hfits.profit_le⟩
  · exact fun rs w' hrun => hrun.usdcOut_le hsound

end Perform

section Example

/-- One provider's 200 units, lent and repaid with a fee of 100. -/
def afterFees : ShareWorth String := ⟨⟨"USDC", 301⟩, ⟨"PoolShares", 201⟩⟩

theorem reachable_afterFees : pool.Reachable TransitionSystem.anyStep afterFees := by
  have hparity : pool.Reachable TransitionSystem.anyStep
      (⟨⟨"USDC", 1⟩, ⟨"PoolShares", 1⟩⟩ : ShareWorth String) :=
    .init ⟨"USDC", "PoolShares", rfl⟩
  have hrun : pool.runWhile TransitionSystem.anyStep ⟨⟨"USDC", 1⟩, ⟨"PoolShares", 1⟩⟩
      [.deposit ⟨⟨"USDC", 200⟩, none⟩,
        .repay ⟨⟨"USDC", 150⟩, ⟨"USDC", 100⟩, ⟨"USDC", 0⟩, ⟨"USDC", 0⟩⟩ ⟨"USDC", 150⟩
          ⟨⟨"USDC", 150⟩, ⟨"USDC", 0⟩, ⟨"USDC", 0⟩, ⟨"USDC", 0⟩⟩] = some afterFees := by
    decide +kernel
  exact hparity.of_runWhile hrun

/-- A unit for a share, twice, and the two shares given back. -/
def unitDeposits : List (Receipt String) :=
  [{ before := afterFees, usdcIn := 1, sharesOut := 1
     after := ⟨⟨"USDC", 302⟩, ⟨"PoolShares", 202⟩⟩ },
   { before := ⟨⟨"USDC", 302⟩, ⟨"PoolShares", 202⟩⟩, usdcIn := 1, sharesOut := 1
     after := ⟨⟨"USDC", 303⟩, ⟨"PoolShares", 203⟩⟩ },
   { before := ⟨⟨"USDC", 303⟩, ⟨"PoolShares", 203⟩⟩, sharesIn := 2, usdcOut := 3
     after := ⟨⟨"USDC", 300⟩, ⟨"PoolShares", 201⟩⟩ }]

theorem providerRun_unitDeposits :
    ProviderRun afterFees 0 unitDeposits ⟨⟨"USDC", 300⟩, ⟨"PoolShares", 201⟩⟩ := by
  apply ProviderRun.cons (.deposit ⟨⟨"USDC", 1⟩, none⟩) rfl rfl (by decide)
  apply ProviderRun.cons (.deposit ⟨⟨"USDC", 1⟩, none⟩) rfl rfl (by decide)
  apply ProviderRun.cons (.withdraw ⟨⟨"PoolShares", 2⟩, ⟨"USDC", 3⟩⟩
    (Record.singleton "USDC" ⟨"USDC", 302⟩) ⟨"USDC", 0⟩) rfl rfl (by decide)
  exact ProviderRun.nil ..

/-- Two units buy two shares, the shares give back three units, and the first of the
deposits already cost the provider that was there. -/
theorem pool_shares_unfair :
    pool.Reachable TransitionSystem.anyStep afterFees ∧
      (∃ r, Operation.perform afterFees (.deposit ⟨⟨"USDC", 1⟩, none⟩) = .ok r ∧
        200 * r.after.toRat < 200 * afterFees.toRat) ∧
      ∃ w', ProviderRun afterFees 0 unitDeposits w' ∧ usdcIn unitDeposits < usdcOut unitDeposits := by
  refine ⟨reachable_afterFees, ?_, _, providerRun_unitDeposits, by decide⟩
  refine ⟨{ before := afterFees, usdcIn := 1, sharesOut := 1
            after := ⟨⟨"USDC", 302⟩, ⟨"PoolShares", 202⟩⟩ }, rfl, ?_⟩
  norm_num [Ratio.toRat, afterFees]

theorem pool_shares_fair_afterFees :
    (1 ≤ afterFees.numerator.value ∧ 1 ≤ afterFees.denominator.value) ∧
      (3 : ℚ) ≤ 2 + (unitDeposits.map fun r => max 0 r.profit).sum :=
  ⟨(pool_shares_fair reachable_afterFees).1, by
    simpa [usdcOut, usdcIn, unitDeposits] using
      (pool_shares_fair reachable_afterFees).2.2 _ _ providerRun_unitDeposits⟩

end Example

end AgoricSdk.FastUsdc
