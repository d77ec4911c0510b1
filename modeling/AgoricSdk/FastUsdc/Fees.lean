import AgoricSdk.ERTP.RatioArithmetic
import AgoricSdk.Lib.Table

/-!
The fees of an advance: a variable and a flat part shared between the pool and the
contract, and an optional part for the relay. What is advanced and how the repayment is
split are computed at different times, from the same configuration.
-/

namespace AgoricSdk.FastUsdc

open ERTP

variable {β : Type}

/-- The values of a configuration that a destination has of its own. -/
structure FeeOverrides (β : Type) where
  flat : Option (NatAmount β) := none
  variableRate : Option (Ratio β) := none
  contractRate : Option (Ratio β) := none
  relay : Option (NatAmount β) := none

structure FeeConfig (β : Type) where
  flat : NatAmount β
  variableRate : Ratio β
  contractRate : Ratio β
  relay : Option (NatAmount β) := none
  /-- By chain, written `namespace:reference`. -/
  destinationOverrides : Table String (FeeOverrides β) := ∅

inductive FeeFault (β : Type) where
  | ratio (fault : RatioFault β)
  | malformedAccountId (accountId : String)
  | requestMustExceedFees
  deriving DecidableEq

abbrev FeeResult (β α : Type) := Except (FeeFault β) α

def amountResult {α : Type} (result : RatioResult β α) : FeeResult β α :=
  result.mapError .ratio

structure RepayAmountKWR (β : Type) where
  Principal : NatAmount β
  PoolFee : NatAmount β
  ContractFee : NatAmount β
  RelayFee : NatAmount β
  deriving DecidableEq

def chainOfAccount (accountId : String) : FeeResult β String :=
  match accountId.toList.splitOn ':' with
  | [ns, reference, _] => .ok (String.ofList (ns ++ ':' :: reference))
  | _ => .error (.malformedAccountId accountId)

/-- `key` reads the override, `value` is what the configuration has under the same key. -/
def getConfigValue {α : Type} (feeConfig : FeeConfig β) (key : FeeOverrides β → Option α)
    (value : α) (destination : String) : FeeResult β α := do
  let chainId ← chainOfAccount destination
  return ((feeConfig.destinationOverrides.lookup chainId).bind key).getD value

section FeeTools

variable [DecidableEq β] (feeConfig : FeeConfig β)

def emptyAmount : NatAmount β := NatAmount.makeEmpty feeConfig.flat.brand

def calculateBaseFee (requested : NatAmount β) (destination : String) :
    FeeResult β (NatAmount β) := do
  let flat ← getConfigValue feeConfig (·.flat) feeConfig.flat destination
  let variableRate ←
    getConfigValue feeConfig (·.variableRate) feeConfig.variableRate destination
  let variableFee ← amountResult (multiplyBy requested variableRate)
  amountResult (variableFee.add flat)

def calculateRelayFee (destination : String) : FeeResult β (NatAmount β) := do
  let relay ← getConfigValue feeConfig (·.relay.map some) feeConfig.relay destination
  return relay.getD (emptyAmount feeConfig)

/-- Both calculations throw where the fees are not less than what is requested. -/
def checkExceeds (requested fee : NatAmount β) : FeeResult β Unit := do
  if ← amountResult (fee.isGTE requested) then throw .requestMustExceedFees

def calculateAdvanceFee (requested : NatAmount β) (destination : String) :
    FeeResult β (NatAmount β) := do
  let baseFee ← calculateBaseFee feeConfig requested destination
  let relayFee ← calculateRelayFee feeConfig destination
  let fee ← amountResult (baseFee.add relayFee)
  checkExceeds requested fee
  return fee

def calculateAdvance (requested : NatAmount β) (destination : String) :
    FeeResult β (NatAmount β) := do
  let fee ← calculateAdvanceFee feeConfig requested destination
  amountResult (requested.subtract fee)

def calculateSplit (requested : NatAmount β) (destination : String) :
    FeeResult β (RepayAmountKWR β) := do
  let baseFee ← calculateBaseFee feeConfig requested destination
  let relayFee ← calculateRelayFee feeConfig destination
  let totalFee ← amountResult (baseFee.add relayFee)
  checkExceeds requested totalFee
  let contractRate ←
    getConfigValue feeConfig (·.contractRate) feeConfig.contractRate destination
  let Principal ← amountResult (requested.subtract totalFee)
  let ContractFee ← amountResult (multiplyBy baseFee contractRate)
  let PoolFee ← amountResult (baseFee.subtract ContractFee)
  return { Principal, PoolFee, ContractFee, RelayFee := relayFee }

end FeeTools

/-! ## The split of what is advanced -/

section Split

variable {feeConfig : FeeConfig β} {destination : String}

theorem amountResult_eq_ok {α : Type} {result : RatioResult β α} {a : α} :
    amountResult result = .ok a ↔ result = .ok a :=
  mapError_ok_iff

/-- A part of a fee of this brand. -/
structure IsShareOf (brand : β) (rate : Ratio β) : Prop where
  valid : rate.Valid
  numerator_brand : rate.numerator.brand = brand
  denominator_brand : rate.denominator.brand = brand
  le_one : rate.toRat ≤ 1

theorem getConfigValue_returns {α γ : Type} {key : FeeOverrides β → Option α} {value a : α}
    (h : getConfigValue feeConfig key value destination = .ok a)
    (key' : FeeOverrides β → Option γ) (value' : γ) :
    ∃ c, getConfigValue feeConfig key' value' destination = .ok c := by
  obtain ⟨chainId, hchain, -⟩ := bind_eq_ok.mp h
  exact ⟨_, bind_eq_ok.mpr ⟨chainId, hchain, rfl⟩⟩

variable [DecidableEq β] {requested principal base contractFee : NatAmount β} {rate : Ratio β}

theorem checkExceeds_eq_ok {fee : NatAmount β} :
    checkExceeds requested fee = .ok () ↔
      fee.brand = requested.brand ∧ fee.value < requested.value := by
  unfold checkExceeds
  rw [bind_eq_ok]
  constructor
  · rintro ⟨gte, hgte, h⟩
    obtain ⟨hbrand, rfl⟩ := NatAmount.isGTE_eq_ok.mp (amountResult_eq_ok.mp hgte)
    split at h
    · cases h
    next hlt => exact ⟨hbrand, by simpa using hlt⟩
  · rintro ⟨hbrand, hlt⟩
    have hgte := amountResult_eq_ok.mpr (NatAmount.isGTE_eq_ok.mpr ⟨hbrand, rfl⟩)
    exact ⟨_, hgte, if_neg (by simpa using hlt)⟩

theorem contractFee_le (hrate : IsShareOf base.brand rate)
    (h : multiplyBy base rate = .ok contractFee) :
    contractFee.brand = base.brand ∧ contractFee.value ≤ base.value := by
  obtain ⟨-, -, rfl⟩ := (multiplyHelper_eq_ok natSafeMath.bankersDivide_divides).mp h
  apply And.intro hrate.numerator_brand
  have hbase : (0 : ℚ) ≤ base.value := Nat.cast_nonneg _
  have hnonneg : 0 ≤ (base.value : ℚ) * rate.toRat :=
    mul_nonneg hbase (div_nonneg (Nat.cast_nonneg _) (Nat.cast_nonneg _))
  apply (roundsHalfEven_roundHalfEven hnonneg).le_of_le_natCast
  exact mul_le_of_le_one_right hbase hrate.le_one

/-- What is advanced is the principal of the split, and the split adds up. -/
theorem calculateSplit_conserves (hadvance : calculateAdvance feeConfig requested destination =
      .ok principal)
    (hrate : ∀ rate, getConfigValue feeConfig (·.contractRate) feeConfig.contractRate destination =
      .ok rate → IsShareOf requested.brand rate) :
    ∃ split, calculateSplit feeConfig requested destination = .ok split ∧
      split.Principal = principal ∧
      split.Principal.value + split.PoolFee.value + split.ContractFee.value +
        split.RelayFee.value = requested.value ∧
      split.Principal.brand = requested.brand ∧ split.PoolFee.brand = requested.brand ∧
      split.ContractFee.brand = requested.brand ∧ split.RelayFee.brand = requested.brand := by
  obtain ⟨fee, hfee, hprincipal⟩ := bind_eq_ok.mp hadvance
  obtain ⟨baseFee, hbase, hfee⟩ := bind_eq_ok.mp hfee
  obtain ⟨relayFee, hrelay, hfee⟩ := bind_eq_ok.mp hfee
  obtain ⟨totalFee, htotal, hfee⟩ := bind_eq_ok.mp hfee
  obtain ⟨_, hexceeds, hfee⟩ := bind_eq_ok.mp hfee
  cases hfee
  obtain ⟨hbrand, hlt⟩ := checkExceeds_eq_ok.mp hexceeds
  obtain ⟨hrelayBrand, rfl⟩ := NatAmount.add_eq_ok.mp (amountResult_eq_ok.mp htotal)
  obtain ⟨-, hle, rfl⟩ := NatAmount.subtract_eq_ok.mp (amountResult_eq_ok.mp hprincipal)
  dsimp only at hbrand hlt hle
  obtain ⟨flat, hflat, -⟩ := bind_eq_ok.mp hbase
  obtain ⟨rate, hget⟩ := getConfigValue_returns hflat (·.contractRate) feeConfig.contractRate
  have hshare : IsShareOf baseFee.brand rate := hbrand ▸ hrate rate hget
  obtain ⟨contractFee, hcontract⟩ : ∃ c, multiplyBy baseFee rate = .ok c :=
    ⟨_, (multiplyHelper_eq_ok natSafeMath.bankersDivide_divides).mpr
      ⟨hshare.denominator_brand.symm, hshare.valid, rfl⟩⟩
  obtain ⟨hcontractBrand, hcontractLe⟩ := contractFee_le hshare hcontract
  have hpool := NatAmount.subtract_eq_ok.mpr ⟨hcontractBrand.symm, hcontractLe, rfl⟩
  refine ⟨⟨_, ⟨baseFee.brand, baseFee.value - contractFee.value⟩, contractFee, relayFee⟩, ?_, rfl,
    ?_, rfl, hbrand, hcontractBrand.trans hbrand, hrelayBrand.symm.trans hbrand⟩
  · exact bind_eq_ok.mpr ⟨_, hbase, bind_eq_ok.mpr ⟨_, hrelay, bind_eq_ok.mpr ⟨_, htotal,
      bind_eq_ok.mpr ⟨_, hexceeds, bind_eq_ok.mpr ⟨_, hget, bind_eq_ok.mpr ⟨_, hprincipal,
        bind_eq_ok.mpr ⟨_, amountResult_eq_ok.mpr hcontract,
          bind_eq_ok.mpr ⟨_, amountResult_eq_ok.mpr hpool, rfl⟩⟩⟩⟩⟩⟩⟩⟩
  · dsimp only
    omega

/-- A fifth, but of another brand: the advance is made, the repayment cannot be split. -/
theorem calculateSplit_throws_across_brands :
    let feeConfig : FeeConfig String :=
      { flat := ⟨"USDC", 1⟩
        variableRate := ⟨⟨"USDC", 2⟩, ⟨"USDC", 100⟩⟩
        contractRate := ⟨⟨"BLD", 20⟩, ⟨"BLD", 100⟩⟩ }
    feeConfig.contractRate.Valid ∧ feeConfig.contractRate.toRat ≤ 1 ∧
      calculateAdvance feeConfig ⟨"USDC", 100⟩ "eip155:1:0x1" = .ok ⟨"USDC", 97⟩ ∧
      calculateSplit feeConfig ⟨"USDC", 100⟩ "eip155:1:0x1" =
        .error (.ratio (.mustMatchDenominator "USDC" "BLD")) := by
  refine ⟨by unfold Ratio.Valid; decide, by norm_num [Ratio.toRat], ?_, ?_⟩
  · decide +kernel
  · decide +kernel

/-- The relay's fee for one chain, and a contract rate of its own for it. -/
theorem calculateSplit_conserves_override :
    let feeConfig : FeeConfig String :=
      { flat := ⟨"USDC", 1⟩
        variableRate := ⟨⟨"USDC", 2⟩, ⟨"USDC", 100⟩⟩
        contractRate := ⟨⟨"USDC", 20⟩, ⟨"USDC", 100⟩⟩
        destinationOverrides := Table.insert ∅ "eip155:1"
          { relay := some ⟨"USDC", 5⟩, contractRate := some ⟨⟨"USDC", 1⟩, ⟨"USDC", 2⟩⟩ } }
    ∃ split, calculateSplit feeConfig ⟨"USDC", 150⟩ "eip155:1:0x1" = .ok split ∧
      split.Principal = ⟨"USDC", 141⟩ ∧
      split.Principal.value + split.PoolFee.value + split.ContractFee.value +
        split.RelayFee.value = 150 := by
  intro feeConfig
  have hadvance : calculateAdvance feeConfig ⟨"USDC", 150⟩ "eip155:1:0x1" =
      .ok ⟨"USDC", 141⟩ := by decide +kernel
  have hrate : ∀ rate, getConfigValue feeConfig (·.contractRate) feeConfig.contractRate
      "eip155:1:0x1" = .ok rate → IsShareOf "USDC" rate := by
    intro rate h
    have heffective : getConfigValue feeConfig (·.contractRate) feeConfig.contractRate
      "eip155:1:0x1" = .ok ⟨⟨"USDC", 1⟩, ⟨"USDC", 2⟩⟩ := by decide +kernel
    rw [heffective] at h
    cases h
    exact ⟨by unfold Ratio.Valid; decide, rfl, rfl, by norm_num [Ratio.toRat]⟩
  obtain ⟨split, hsplit, hprincipal, hsum, -⟩ := calculateSplit_conserves hadvance hrate
  exact ⟨split, hsplit, hprincipal, hsum⟩

end Split

end AgoricSdk.FastUsdc
