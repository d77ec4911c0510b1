import Mathlib.Tactic

/-!
References to the places where funds can be. Their first character tells an
instrument from the account on a chain.
-/

namespace AgoricSdk.Portfolio

abbrev PlaceRef := String

/-- Does it start with an ASCII letter? -/
def isInstrumentId (ref : PlaceRef) : Bool := ref.toList.head?.any Char.isAlpha

def isInterChainAccountRef (ref : PlaceRef) : Bool := ref.toList.head? = some '@'

def isPortfolioBalancePlaceRef (ref : PlaceRef) : Bool :=
  isInterChainAccountRef ref || isInstrumentId ref

def beefyPoolPlaces : List (PlaceRef × String) :=
  [("Beefy_re7_Avalanche", "Avalanche"),
    ("Beefy_morphoGauntletUsdc_Ethereum", "Ethereum"),
    ("Beefy_morphoSmokehouseUsdc_Ethereum", "Ethereum"),
    ("Beefy_morphoSeamlessUsdc_Base", "Base"),
    ("Beefy_compoundUsdc_Optimism", "Optimism"),
    ("Beefy_compoundUsdc_Arbitrum", "Arbitrum")]

def erc4626PoolPlaces : List (PlaceRef × String) :=
  [("ERC4626_vaultU2_Ethereum", "Ethereum"),
    ("ERC4626_morphoClearstarHighYieldUsdc_Ethereum", "Ethereum"),
    ("ERC4626_morphoClearstarUsdcCore_Ethereum", "Ethereum"),
    ("ERC4626_morphoGauntletUsdcRwa_Ethereum", "Ethereum"),
    ("ERC4626_morphoSteakhouseHighYieldInstant_Ethereum", "Ethereum"),
    ("ERC4626_morphoClearstarInstitutionalUsdc_Ethereum", "Ethereum"),
    ("ERC4626_morphoClearstarUsdcReactor_Ethereum", "Ethereum"),
    ("ERC4626_morphoAlphaUsdcCore_Ethereum", "Ethereum"),
    ("ERC4626_morphoResolvUsdc_Ethereum", "Ethereum"),
    ("ERC4626_morphoGauntletUsdcFrontier_Ethereum", "Ethereum"),
    ("ERC4626_morphoHyperithmUsdcMidcurve_Ethereum", "Ethereum"),
    ("ERC4626_morphoHyperithmUsdcDegen_Ethereum", "Ethereum"),
    ("ERC4626_morphoGauntletUsdcCore_Ethereum", "Ethereum"),
    ("ERC4626_morphoSteakhousePrimeUsdc_Base", "Base"),
    ("ERC4626_morphoSteakhouseUsdc_Base", "Base"),
    ("ERC4626_morphoGauntletUsdcPrime_Base", "Base"),
    ("ERC4626_morphoSeamlessUsdcVault_Base", "Base"),
    ("ERC4626_morphoSteakhouseHighYieldUsdc_Arbitrum", "Arbitrum"),
    ("ERC4626_morphoGauntletUsdcCore_Arbitrum", "Arbitrum"),
    ("ERC4626_morphoHyperithmUsdc_Arbitrum", "Arbitrum"),
    ("ERC4626_morphoGauntletUsdcPrime_Optimism", "Optimism"),
    ("ERC4626_morphoGauntletUsdcPrime_Ethereum", "Ethereum"),
    ("ERC4626_morphoEthenaSteakhouseUsdc_Base", "Base"),
    ("ERC4626_morphoKpkUsdcPrime_Ethereum", "Ethereum"),
    ("ERC4626_morphoRockawayxUsdcYield_Ethereum", "Ethereum"),
    ("ERC4626_morphoHumaUsdcMain_Ethereum", "Ethereum"),
    ("ERC4626_morphoSteakhouseHighYieldUsdcEdition_Base", "Base"),
    ("ERC4626_morphoSteakhousePrimeUsdc_Ethereum", "Ethereum"),
    ("ERC4626_morphoSteakhouseConfidentialPrimeUsdc_Ethereum", "Ethereum"),
    ("ERC4626_morphoGauntletUsdcPrimeV2_Base", "Base"),
    ("ERC4626_morphoGauntletUsdcFrontier_Base", "Base"),
    ("ERC4626_morphoReEcosystemVault_Ethereum", "Ethereum"),
    ("ERC4626_morphoApyxUsdc_Ethereum", "Ethereum"),
    ("ERC4626_morphoRockawayxToriEcosystem_Ethereum", "Ethereum"),
    ("ERC4626_morphoRockawayxFxProtocolEcosystemUsdc_Ethereum", "Ethereum")]

/-- The instruments, each with its chain. -/
def poolPlaces : List (PlaceRef × String) :=
  [("USDN", "noble"),
    ("USDNVault", "noble"),
    ("Aave_Avalanche", "Avalanche"),
    ("Aave_Ethereum", "Ethereum"),
    ("Aave_Optimism", "Optimism"),
    ("Aave_Arbitrum", "Arbitrum"),
    ("Aave_Base", "Base"),
    ("Compound_Ethereum", "Ethereum"),
    ("Compound_Optimism", "Optimism"),
    ("Compound_Arbitrum", "Arbitrum"),
    ("Compound_Base", "Base")] ++
    beefyPoolPlaces ++ erc4626PoolPlaces

/-- The chain that a pool's name ends in: `/^(?:[A-Za-z0-9]+_)+([A-Za-z0-9]+)$/` -/
def chainSuffix (id : PlaceRef) : Option String :=
  let parts := id.toList.splitOn '_'
  if 1 < parts.length ∧ parts.all fun part => ¬ part.isEmpty ∧ part.all Char.isAlphanum then
    parts.getLast?.map String.ofList
  else none

def chainOf (id : PlaceRef) : Except String String :=
  if id.toList.head? = some '<' then pure "agoric"
  else if ¬ isInstrumentId id then pure (String.ofList (id.toList.drop 1))
  else
    match poolPlaces.lookup id with
    | some chainName => pure chainName
    | none =>
      match chainSuffix id with
      | some chain => pure chain
      | none => throw s!"Cannot determine chain for {id}"

section Patterns

/-- `\w+` -/
def isWord (cs : List Char) : Bool := ¬ cs.isEmpty && cs.all fun c => c.isAlphanum || c = '_'

/-- `/^<(?<keyword>\w+)>$/` -/
def seatRef (ref : PlaceRef) : Option String :=
  match ref.toList with
  | '<' :: cs =>
    if cs.getLast? = some '>' ∧ isWord cs.dropLast then some (String.ofList cs.dropLast) else none
  | _ => none

/-- `/^\+(?<chain>\w+)$/` and `/^-(?<chain>\w+)$/` -/
def signedRef (sign : Char) (ref : PlaceRef) : Option String :=
  match ref.toList with
  | c :: cs => if c = sign ∧ isWord cs then some (String.ofList cs) else none
  | [] => none

def seatKeywords : List String := ["Cash", "Deposit"]

def axelarChains : List String := ["Arbitrum", "Avalanche", "Base", "Ethereum", "Optimism"]

def oneOf (known : List String) (ref : PlaceRef) : Option String → Except String (Option String)
  | none => pure none
  | some word => if word ∈ known then pure (some word) else throw s!"bad ref: {ref}"

def getKeywordOfPlaceRef (ref : PlaceRef) : Except String (Option String) :=
  oneOf seatKeywords ref (seatRef ref)

def getDepositChainOfPlaceRef (ref : PlaceRef) : Except String (Option String) :=
  if ref = "+agoric" then pure none else oneOf axelarChains ref (signedRef '+' ref)

def getWithdrawChainOfPlaceRef (ref : PlaceRef) : Except String (Option String) :=
  oneOf axelarChains ref (signedRef '-' ref)

end Patterns

example : (chainOf "USDNVault", chainOf "Aave_v4_Base", chainOf "@Arbitrum") =
    (.ok "noble", .ok "Base", .ok "Arbitrum") := by
  decide +kernel

end AgoricSdk.Portfolio
