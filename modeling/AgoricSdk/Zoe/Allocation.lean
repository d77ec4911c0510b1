import AgoricSdk.ERTP.AmountMath
import AgoricSdk.Lib.Record
import AgoricSdk.Lib.Table

/-!
Allocations and proposals, and the pure functions on them: cleaning a proposal,
offer safety, conservation of rights, adding to and subtracting from an
allocation, and the allocations that result from a list of transfers. `none`
stands for a throw.
-/

namespace AgoricSdk.Zoe

open ERTP

abbrev Keyword := String

abbrev AmountKeywordRecord (β κ : Type) := Record Keyword (Amount β κ)

/-- What a seat is allotted, by keyword. -/
abbrev Allocation (β κ : Type) := AmountKeywordRecord β κ

/-- A pattern for an amount: a record of a brand and a value, whose value may
hold patterns in place of keys, or any other pattern. -/
inductive AmountPattern (β κ : Type) where
  | amount (a : Amount β κ)
  | other
  deriving DecidableEq

structure ProposalRecord (β κ : Type) where
  give : AmountKeywordRecord β κ
  want : Record Keyword (AmountPattern β κ)

variable {β κ : Type} [DecidableEq β] [DecidableEq κ] (lib : StoreLib κ)

/-! ## Shapes -/

/-- `AmountShape` -/
def amountShape (a : Amount β κ) : Bool :=
  match a.value with
  | .bigint n => lib.matchesNat n
  | .copyArray l => lib.matchesArrayOf lib.isKey l
  | .copySet l => lib.matchesSet l
  | .copyBag es => lib.matchesBag es
  | .other => false

/-- `AmountKeywordRecordShape` -/
def amountKeywordRecordShape (r : AmountKeywordRecord β κ) : Bool :=
  r.values.all (amountShape lib)

/-- Whether a record of a brand and a value is a key. -/
def isKeyAmount (a : Amount β κ) : Bool :=
  match a.value with
  | .bigint _ => true
  | .copyArray l => l.all lib.isKey
  | .copySet l => lib.matchesSet l
  | .copyBag es => lib.matchesBag es
  | .other => false

/-! ## Cleaning proposals -/

def MAX_KEYWORD_LENGTH : Nat := 100

/-- `/^[A-Z][a-zA-Z0-9_$]*$/` -/
def firstCapASCII (keyword : String) : Bool :=
  match keyword.toList with
  | [] => false
  | c :: cs =>
      c.isUpper && cs.all fun c => c.isLower || c.isUpper || c.isDigit || c = '_' || c = '$'

def assertKeywordName (keyword : Keyword) : Bool :=
  keyword.length ≤ MAX_KEYWORD_LENGTH && firstCapASCII keyword &&
    keyword ≠ "NaN" && keyword ≠ "Infinity"

def cleanKeywords {α : Type} (uncleanKeywordRecord : Record Keyword α) : Bool :=
  uncleanKeywordRecord.keys.all assertKeywordName

/-- A key is coerced as an amount of its brand's kind, another pattern is kept. -/
def coerceAmountPattern (getAssetKindByBrand : β → Option AssetKind) :
    AmountPattern β κ → Option (AmountPattern β κ)
  | .amount amount =>
      if isKeyAmount lib amount then do
        let brandAssetKind ← getAssetKindByBrand amount.brand
        let assetKind ← assertValueGetAssetKind lib amount.value
        if assetKind = brandAssetKind then
          return .amount (← AmountMath.coerce lib amount.brand amount)
        else none
      else some (.amount amount)
  | .other => some .other

def coerceAmountPatternKeywordRecord (getAssetKindByBrand : β → Option AssetKind)
    (allegedAmountKeywordRecord : Record Keyword (AmountPattern β κ)) :
    Option (Record Keyword (AmountPattern β κ)) :=
  if cleanKeywords allegedAmountKeywordRecord then
    allegedAmountKeywordRecord.mapM fun _ amount =>
      coerceAmountPattern lib getAssetKindByBrand amount
  else none

/-- `assertKey(result)` leaves amounts only. -/
def coerceAmountKeywordRecord (getAssetKindByBrand : β → Option AssetKind)
    (allegedAmountKeywordRecord : Record Keyword (AmountPattern β κ)) :
    Option (AmountKeywordRecord β κ) := do
  let result ← coerceAmountPatternKeywordRecord lib getAssetKindByBrand allegedAmountKeywordRecord
  result.mapM fun _ amount =>
    match amount with
    | .amount a => if isKeyAmount lib a then some a else none
    | .other => none

/-- The `give` and `want` of a proposal; its exit rule is not part of the model. -/
def cleanProposal (getAssetKindByBrand : β → Option AssetKind)
    (want give : Record Keyword (AmountPattern β κ)) : Option (ProposalRecord β κ) := do
  let cleanedWant ← coerceAmountPatternKeywordRecord lib getAssetKindByBrand want
  let cleanedGive ← coerceAmountKeywordRecord lib getAssetKindByBrand give
  if amountKeywordRecordShape lib cleanedGive then
    -- assertKeywordNotInBoth
    if cleanedGive.keys.all fun keyword => ¬ cleanedWant.has keyword then
      some { give := cleanedGive, want := cleanedWant }
    else none
  else none

/-! ## Offer safety -/

/-- Whether the allocation covers one required amount. -/
def isGTEByKeyword (allocation : Allocation β κ) (keyword : Keyword)
    (requiredAmount : AmountPattern β κ) : Option Bool :=
  match allocation.get keyword, requiredAmount with
  | none, _ => some false
  | some allocationAmount, .amount a => AmountMath.isGTE lib allocationAmount a none
  | some _, .other => none

/-- `entries.every(isGTEByKeyword)`, which stops at the first 0. -/
def everyEntry (allocation : Allocation β κ) :
    List (Keyword × AmountPattern β κ) → Option Bool
  | [] => some true
  | (keyword, requiredAmount) :: entries => do
      if ← isGTEByKeyword lib allocation keyword requiredAmount then
        everyEntry allocation entries
      else some false

def satisfiesWant (proposal : ProposalRecord β κ) (allocation : Allocation β κ) : Option Bool :=
  everyEntry lib allocation proposal.want.entries

def satisfiesGive (proposal : ProposalRecord β κ) (allocation : Allocation β κ) : Option Bool :=
  everyEntry lib allocation (proposal.give.entries.map fun e => (e.1, .amount e.2))

def isOfferSafe (proposal : ProposalRecord β κ) (allocation : Allocation β κ) : Option Bool := do
  if ← satisfiesGive lib proposal allocation then some true
  else satisfiesWant lib proposal allocation

/-! ## Conservation of rights -/

/-- The sums of the amounts by brand, on top of the sums so far. -/
def sumByBrand : List (Amount β κ) → Table β (Amount β κ) → Option (Table β (Amount β κ))
  | [], sumsByBrand => some sumsByBrand
  | amount :: amounts, sumsByBrand =>
      match sumsByBrand.lookup amount.brand with
      | none => sumByBrand amounts (sumsByBrand.insert amount.brand amount)
      | some sumSoFar => do
          let sum ← AmountMath.add lib sumSoFar amount none
          sumByBrand amounts (sumsByBrand.insert amount.brand sum)

/-- The sums of a brand on both sides; an absent one is empty. -/
def getSums (leftSumsByBrand rightSumsByBrand : Table β (Amount β κ)) (brand : β) :
    Option (Amount β κ × Amount β κ) :=
  match leftSumsByBrand.lookup brand, rightSumsByBrand.lookup brand with
  | some leftSum, some rightSum => some (leftSum, rightSum)
  | some leftSum, none => (AmountMath.makeEmptyFromAmount lib leftSum).map fun e => (leftSum, e)
  | none, some rightSum => (AmountMath.makeEmptyFromAmount lib rightSum).map fun e => (e, rightSum)
  | none, none => none

def assertEqualForBrands (leftSumsByBrand rightSumsByBrand : Table β (Amount β κ)) :
    List β → Option Unit
  | [] => some ()
  | brand :: brands => do
      let (leftSum, rightSum) ← getSums lib leftSumsByBrand rightSumsByBrand brand
      if ← AmountMath.isEqual lib leftSum rightSum none then
        assertEqualForBrands leftSumsByBrand rightSumsByBrand brands
      else none

def assertEqualPerBrand (leftSumsByBrand rightSumsByBrand : Table β (Amount β κ)) : Option Unit :=
  assertEqualForBrands lib leftSumsByBrand rightSumsByBrand
    (leftSumsByBrand.keys ++ rightSumsByBrand.keys).dedup

def assertRightsConserved (previousAmounts newAmounts : List (Amount β κ)) : Option Unit := do
  let sumsPrevAmounts ← sumByBrand lib previousAmounts ∅
  let sumsNewAmounts ← sumByBrand lib newAmounts ∅
  assertEqualPerBrand lib sumsPrevAmounts sumsNewAmounts

/-! ## Arithmetic of allocations -/

/-- The operation is applied under every keyword of either record. -/
def doOperation (allocation amountKeywordRecord : AmountKeywordRecord β κ)
    (operationFn : Option (Amount β κ) → Option (Amount β κ) → Option (Option (Amount β κ))) :
    Option (AmountKeywordRecord β κ) :=
  Record.collect (allocation.spread amountKeywordRecord) fun keyword =>
    operationFn (allocation.get keyword) (amountKeywordRecord.get keyword)

def addOperation : Option (Amount β κ) → Option (Amount β κ) → Option (Option (Amount β κ))
  | some amount, some amountToAdd => (AmountMath.add lib amount amountToAdd none).map some
  | some amount, none => some (some amount)
  | none, amountToAdd => some amountToAdd

def subtractOperation : Option (Amount β κ) → Option (Amount β κ) → Option (Option (Amount β κ))
  | amount, none => some amount
  | amount, some amountToSubtract => do
      if ← AmountMath.isEmpty lib amountToSubtract none then some amount
      else
        let amount ← amount
        if ← AmountMath.isGTE lib amount amountToSubtract none then
          (AmountMath.subtract lib amount amountToSubtract none).map some
        else none

def addToAllocation (allocation amountKeywordRecord : AmountKeywordRecord β κ) :
    Option (AmountKeywordRecord β κ) :=
  doOperation allocation amountKeywordRecord (addOperation lib)

def subtractFromAllocation (allocation amountKeywordRecord : AmountKeywordRecord β κ) :
    Option (AmountKeywordRecord β κ) :=
  doOperation allocation amountKeywordRecord (subtractOperation lib)

/-- The amounts added to the total must all be of the brand. -/
def sumAmounts (brand : β) : List (Amount β κ) → Amount β κ → Option (Amount β κ)
  | [], total => some total
  | amountToAdd :: amounts, total => do
      sumAmounts brand amounts (← AmountMath.add lib total amountToAdd (some brand))

def sumAmountKeywordRecord (amr : AmountKeywordRecord β κ) (brand : β) (assetKind : AssetKind) :
    Option (Amount β κ) :=
  sumAmounts lib brand amr.values (AmountMath.makeEmpty lib brand assetKind)

/-! ## Transfers -/

/-- A seat object as the contract knows it. A number that was not given to a
seat stands for any other object. -/
abbrev ZCFSeat := Nat

structure TransferPart (β κ : Type) where
  fromSeat : Option ZCFSeat
  toSeat : Option ZCFSeat
  fromAmounts : Option (AmountKeywordRecord β κ)
  toAmounts : Option (AmountKeywordRecord β κ)

/-- The increments and decrements of each seat that is mentioned. -/
abbrev Transactions (β κ : Type) :=
  Record ZCFSeat (List (AmountKeywordRecord β κ) × List (AmountKeywordRecord β κ))

namespace Transactions

variable (transactions : Transactions β κ)

def getAllocations (seat : ZCFSeat) :
    List (AmountKeywordRecord β κ) × List (AmountKeywordRecord β κ) :=
  (transactions.get seat).getD ([], [])

def decrementAllocation (seat : ZCFSeat) (decrement : AmountKeywordRecord β κ) :
    Transactions β κ :=
  let pair := getAllocations transactions seat
  transactions.spread (Record.singleton seat (pair.1, pair.2 ++ [decrement]))

def incrementAllocation (seat : ZCFSeat) (increment : AmountKeywordRecord β κ) :
    Transactions β κ :=
  let pair := getAllocations transactions seat
  transactions.spread (Record.singleton seat (pair.1 ++ [increment], pair.2))

end Transactions

/-- One transfer part is noted for its seats. -/
def noteTransfer (allocations : Transactions β κ) (part : TransferPart β κ) :
    Option (Transactions β κ) :=
  match part.fromSeat with
  | some fromSeat => do
      let fromAmounts ← part.fromAmounts
      let allocations := allocations.decrementAllocation fromSeat fromAmounts
      match part.toSeat, part.toAmounts with
      | some toSeat, some toAmounts => do
          assertRightsConserved lib fromAmounts.values toAmounts.values
          some (allocations.incrementAllocation toSeat toAmounts)
      | some toSeat, none => some (allocations.incrementAllocation toSeat fromAmounts)
      | none, none => some allocations
      | none, some _ => none
  | none => do
      let toSeat ← part.toSeat
      if part.fromAmounts.isNone then
        let toAmounts ← part.toAmounts
        some (allocations.incrementAllocation toSeat toAmounts)
      else none

/-- The allocation that results for one seat. -/
def resultingAllocation (current : Allocation β κ)
    (transactions : List (AmountKeywordRecord β κ) × List (AmountKeywordRecord β κ)) :
    Option (Allocation β κ) := do
  let incremented ← transactions.1.foldlM (addToAllocation lib) current
  transactions.2.foldlM (subtractFromAllocation lib) incremented

/-- `getCurrentAllocation` throws for a seat that has exited, and what another
object answers does not matter, as it is not recognized in the end. -/
def makeAllocationMap (getCurrentAllocation : ZCFSeat → Option (Allocation β κ))
    (transfers : List (TransferPart β κ)) : Option (Record ZCFSeat (Allocation β κ)) := do
  let allocations ← transfers.foldlM (noteTransfer lib) (∅ : Transactions β κ)
  allocations.mapM fun seat transactions => do
    resultingAllocation lib (← getCurrentAllocation seat) transactions

end AgoricSdk.Zoe
