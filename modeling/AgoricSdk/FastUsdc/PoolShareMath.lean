import AgoricSdk.FastUsdc.Fees
import AgoricSdk.Lib.Record

/-!
The arithmetic of the liquidity pool: shares for what is deposited, USDC for the
shares given back, and the worth of a share, which is the pool's balance over the
shares outstanding. Shares and payouts are rounded to the nearest, ties to even.
-/

namespace AgoricSdk.FastUsdc

open ERTP

variable {β : Type}

abbrev ShareWorth (β : Type) := Ratio β

inductive PoolFault (β : Type) where
  | ratio (fault : RatioFault β)
  /-- An assertion on the proposal. -/
  | emptyProposal
  | cannotPayOut (want give fairPoolShare : NatAmount β)
  | unexpectedAllocations
  | inconsistentBalance (unencumbered encumbered : NatAmount β) (shareWorth : ShareWorth β)
  | onlyWorth (want give payout : NatAmount β)
  | onlyInPool (want poolBalance : NatAmount β)
  | inUse (want encumbered poolBalance : NatAmount β)
  | cannotRepay (principal encumbered : NatAmount β)
  deriving DecidableEq

abbrev PoolResult (β α : Type) := Except (PoolFault β) α

def amounts {α : Type} (result : RatioResult β α) : PoolResult β α := result.mapError .ratio

def require (condition : Bool) (fault : PoolFault β) : PoolResult β Unit :=
  if condition then .ok () else .error fault

structure DepositProposal (β : Type) where
  giveUSDC : NatAmount β
  wantPoolShare : Option (NatAmount β) := none

structure WithdrawProposal (β : Type) where
  givePoolShare : NatAmount β
  wantUSDC : NatAmount β

/-- The payout of an operation, with the worth of a share after it. -/
structure PoolPost (β : Type) where
  payout : NatAmount β
  shareWorth : ShareWorth β
  deriving DecidableEq

structure PoolStats (β : Type) where
  totalBorrows : NatAmount β
  totalContractFees : NatAmount β
  totalPoolFees : NatAmount β
  totalRepays : NatAmount β

structure RepayPost (β : Type) where
  shareWorth : ShareWorth β
  encumberedBalance : NatAmount β
  poolStats : PoolStats β

def makeParity (numeratorBrand denominatorBrand : β) : RatioResult β (ShareWorth β) :=
  let dust := 1
  makeRatio dust numeratorBrand dust denominatorBrand

section Calculations

variable [DecidableEq β]

/-- The wanted shares are checked only where some are wanted. -/
def checkWantedShares (proposal : DepositProposal β) (fairPoolShare : NatAmount β) :
    PoolResult β Unit :=
  match proposal.wantPoolShare with
  | none => .ok ()
  | some want => do
    let gte ← amounts (fairPoolShare.isGTE want)
    require gte (.cannotPayOut want proposal.giveUSDC fairPoolShare)

def depositCalc (shareWorth : ShareWorth β) (proposal : DepositProposal β) :
    PoolResult β (PoolPost β) := do
  require (!proposal.giveUSDC.isEmpty) .emptyProposal
  let fairPoolShare ← amounts (divideBy proposal.giveUSDC shareWorth)
  checkWantedShares proposal fairPoolShare
  let outstandingPost ← amounts (shareWorth.denominator.add fairPoolShare)
  let balancePost ← amounts (shareWorth.numerator.add proposal.giveUSDC)
  let worthPost ← amounts (makeRatioFromAmounts balancePost outstandingPost)
  return { payout := fairPoolShare, shareWorth := worthPost }

structure PoolBalances (β : Type) where
  unencumberedBalance : NatAmount β
  grossBalance : NatAmount β

def checkPoolBalance (poolAlloc : Record String (NatAmount β)) (shareWorth : ShareWorth β)
    (encumberedBalance : NatAmount β) : PoolResult β (PoolBalances β) := do
  let usdcBrand := encumberedBalance.brand
  let unencumberedBalance := (poolAlloc.get "USDC").getD (NatAmount.makeEmpty usdcBrand)
  require (poolAlloc.keys = [] || poolAlloc.keys = ["USDC"]) .unexpectedAllocations
  let dust : NatAmount β := { brand := usdcBrand, value := 1 }
  let withDust ← amounts (unencumberedBalance.add dust)
  let grossBalance ← amounts (withDust.add encumberedBalance)
  let consistent ← amounts (grossBalance.isEqual shareWorth.numerator)
  require consistent (.inconsistentBalance unencumberedBalance encumberedBalance shareWorth)
  return { unencumberedBalance, grossBalance }

def withdrawCalc (shareWorth : ShareWorth β) (proposal : WithdrawProposal β)
    (poolAlloc : Record String (NatAmount β)) (encumberedBalance : NatAmount β) :
    PoolResult β (PoolPost β) := do
  let balances ← checkPoolBalance poolAlloc shareWorth encumberedBalance
  require (!proposal.givePoolShare.isEmpty) .emptyProposal
  require (!proposal.wantUSDC.isEmpty) .emptyProposal
  let payout ← amounts (multiplyBy proposal.givePoolShare shareWorth)
  let enough ← amounts (payout.isGTE proposal.wantUSDC)
  require enough (.onlyWorth proposal.wantUSDC proposal.givePoolShare payout)
  let poolBalance := shareWorth.numerator
  let beyondPool ← amounts (proposal.wantUSDC.isGTE poolBalance)
  require (!beyondPool) (.onlyInPool proposal.wantUSDC poolBalance)
  let available ← amounts (balances.unencumberedBalance.isGTE proposal.wantUSDC)
  require available (.inUse proposal.wantUSDC encumberedBalance poolBalance)
  let balancePost ← amounts (poolBalance.subtract payout)
  let outstandingPost ← amounts (shareWorth.denominator.subtract proposal.givePoolShare)
  let worthPost ← amounts (makeRatioFromAmounts balancePost outstandingPost)
  return { payout, shareWorth := worthPost }

def withFees (shareWorth : ShareWorth β) (fees : NatAmount β) : PoolResult β (ShareWorth β) := do
  let balancePost ← amounts (shareWorth.numerator.add fees)
  amounts (makeRatioFromAmounts balancePost shareWorth.denominator)

def repayCalc (shareWorth : ShareWorth β) (split : RepayAmountKWR β)
    (encumberedBalance : NatAmount β) (poolStats : PoolStats β) : PoolResult β (RepayPost β) := do
  let covered ← amounts (encumberedBalance.isGTE split.Principal)
  require covered (.cannotRepay split.Principal encumberedBalance)
  let shareWorth ← withFees shareWorth split.PoolFee
  let encumberedBalance ← amounts (encumberedBalance.subtract split.Principal)
  let totalRepays ← amounts (poolStats.totalRepays.add split.Principal)
  let totalPoolFees ← amounts (poolStats.totalPoolFees.add split.PoolFee)
  let contractFees ← amounts (poolStats.totalContractFees.add split.ContractFee)
  let totalContractFees ← amounts (contractFees.add split.RelayFee)
  return {
    shareWorth, encumberedBalance
    poolStats := { poolStats with totalRepays, totalPoolFees, totalContractFees } }

end Calculations

end AgoricSdk.FastUsdc
