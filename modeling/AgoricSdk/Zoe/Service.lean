import AgoricSdk.ERTP.PaymentLedger
import AgoricSdk.Zoe.ContractFacet

/-!
The Zoe service: its escrow purses, the issuers and instances that it knows,
the offers whose payments are being deposited, and Zoe's copy of every seat.
Purses are reached by eventual sends, so a deposit or a withdrawal is asked for
in one turn and settles in another. A method that throws keeps what it did
before.
-/

namespace AgoricSdk.Zoe

open ERTP StateProgram

variable {β κ : Type} [DecidableEq β] [DecidableEq κ]

/-- The issuer behind each brand, by what its brand says of itself. Only those
that are well-behaved keep to the code of a payment ledger. -/
structure Issuers (β κ : Type) where
  lib : StoreLib κ
  issuer : β → Issuer β κ
  issuer_brand : ∀ brand, (issuer brand).brand = brand
  issuer_lib : ∀ brand, (issuer brand).lib = lib
  wellBehaved : β → Bool

/-! ## The balance of an escrow purse -/

namespace Purse

variable (issuer : Issuer β κ)

/-- The balance after a payment of the amount is deposited. -/
def deposit (balance amount : Amount β κ) : Option (Amount β κ) :=
  if issuer.amountShape amount then AmountMath.add issuer.lib balance amount none else none

/-- The balance after a withdrawal. -/
def withdraw (balance amount : Amount β κ) : Option (Amount β κ) := do
  if issuer.amountShape amount then
    let amount ← AmountMath.coerce issuer.lib issuer.brand amount
    if ← AmountMath.isGTE issuer.lib balance amount none then
      AmountMath.subtract issuer.lib balance amount none
    else none
  else none

/-- The balance after a freshly minted payment is deposited. -/
def mintInto (balance totalToMint : Amount β κ) : Option (Amount β κ) := do
  let payment ← issued issuer (.amount totalToMint)
  if issuer.keyEQ payment totalToMint then deposit issuer balance payment else none

end Purse

/-! ## The state -/

structure ZoeSeatAdmin (β κ : Type) where
  instanceHandle : InstanceHandle
  proposal : ProposalRecord β κ
  currentAllocation : Allocation β κ
  exiting : Bool
  /-- what `withdrawPayments` was called with -/
  withdrawn : Option (Allocation β κ)
  /-- the settled payouts, by the amounts of the payments -/
  payouts : Option (Allocation β κ)

structure InstanceAdmin where
  /-- whether `initDelayedState` was called -/
  handleOfferObj : Bool
  acceptingOffers : Bool
  zoeSeatAdmins : List SeatHandle

inductive Settlement where
  | pending
  | fulfilled
  | rejected
  deriving DecidableEq

/-- `E(purse).withdraw(amount)` for one keyword of a seat. -/
structure Withdrawal (β κ : Type) where
  seatHandle : SeatHandle
  keyword : Keyword
  amount : Amount β κ
  settlement : Settlement

/-- An offer whose deposits are under way. -/
structure Offer (β κ : Type) where
  instanceHandle : InstanceHandle
  proposal : ProposalRecord β κ
  /-- the deposits that have not settled -/
  depositing : List Keyword
  /-- what the purses answered -/
  deposits : Table Keyword (Amount β κ)
  /-- whether nothing has failed so far -/
  alive : Bool

structure ZoeService (β κ : Type) where
  brandToIssuerRecord : Table β AssetKind
  /-- the escrow purses by their balances -/
  brandToPurse : Table β (Amount β κ)
  instanceToInstanceAdmin : Table InstanceHandle InstanceAdmin
  seatHandleToZoeSeatAdmin : Table SeatHandle (ZoeSeatAdmin β κ)
  nextSeatHandle : Nat
  offers : Table Nat (Offer β κ)
  nextOffer : Nat
  withdrawals : List (Withdrawal β κ)
  /-- sent to the contract facets and not yet delivered -/
  sent : List (InstanceHandle × ZCFMessage β κ)

inductive ZoeFault where
  | interfaceGuard
  | notFound
  | alreadyRegistered
  | seatHasExited
  | notAcceptingOffers
  | invalidProposal
  | paymentMismatch
  | incompleteSetup
  | mintFailed
  | burnFailed

abbrev ZoeM (β κ : Type) := EStateM ZoeFault (ZoeService β κ)

def ZoeM.orThrow {α : Type} (e : ZoeFault) : Option α → ZoeM β κ α
  | some a => return a
  | none => throw e

namespace ZoeService

open ZoeM

/-! ## Seats -/

def getInstanceAdmin (instanceHandle : InstanceHandle) : ZoeM β κ InstanceAdmin := do
  orThrow .notFound ((← get).instanceToInstanceAdmin.lookup instanceHandle)

def setInstanceAdmin (instanceHandle : InstanceHandle) (state : InstanceAdmin) : ZoeM β κ Unit :=
  modify fun s =>
    { s with instanceToInstanceAdmin := s.instanceToInstanceAdmin.insert instanceHandle state }

def getZoeSeatAdmin (seatHandle : SeatHandle) : ZoeM β κ (ZoeSeatAdmin β κ) := do
  orThrow .notFound ((← get).seatHandleToZoeSeatAdmin.lookup seatHandle)

def setZoeSeatAdmin (seatHandle : SeatHandle) (state : ZoeSeatAdmin β κ) : ZoeM β κ Unit :=
  modify fun s =>
    { s with seatHandleToZoeSeatAdmin := s.seatHandleToZoeSeatAdmin.insert seatHandle state }

/-- `seatHandleToZoeSeatAdmin.init(seatHandle, zoeSeatAdmin)` -/
def initZoeSeatAdmin (instanceHandle : InstanceHandle) (seatData : SeatData β κ) :
    ZoeM β κ Unit := do
  if (← get).seatHandleToZoeSeatAdmin.has seatData.seatHandle then throw .alreadyRegistered
  setZoeSeatAdmin seatData.seatHandle
    { instanceHandle
      proposal := seatData.proposal
      currentAllocation := seatData.initialAllocation
      exiting := false
      withdrawn := none
      payouts := none }

/-- `zoeSeatAdmins.add(zoeSeatAdmin)` -/
def addZoeSeatAdmin (instanceHandle : InstanceHandle) (seatHandle : SeatHandle) :
    ZoeM β κ Unit := do
  let admin ← getInstanceAdmin instanceHandle
  setInstanceAdmin instanceHandle
    { admin with zoeSeatAdmins := admin.zoeSeatAdmins ++ [seatHandle] }

def assertHasNotExited (seatHandle : SeatHandle) (seat : ZoeSeatAdmin β κ) : ZoeM β κ Unit := do
  if seatHandle ∉ (← getInstanceAdmin seat.instanceHandle).zoeSeatAdmins then throw .seatHasExited

def replaceAllocation (seatHandle : SeatHandle) (replacementAllocation : Allocation β κ) :
    ZoeM β κ Unit := do
  let seat ← getZoeSeatAdmin seatHandle
  assertHasNotExited seatHandle seat
  setZoeSeatAdmin seatHandle { seat with currentAllocation := replacementAllocation }

/-- The withdrawals are sent in the order of the record, up to the first brand
without a purse. -/
def withdrawPayments (seatHandle : SeatHandle) (allocation : Allocation β κ) : ZoeM β κ Unit :=
  allocation.entries.forM fun e => do
    if ¬ (← get).brandToPurse.has e.2.brand then throw .notFound
    modify fun s => { s with
      withdrawals := s.withdrawals ++
        [{ seatHandle, keyword := e.1, amount := e.2, settlement := .pending }] }

/-- `exit` and `fail` of a seat admin, which differ in what they publish. -/
def exit (seatHandle : SeatHandle) : ZoeM β κ Unit := do
  let seat ← getZoeSeatAdmin seatHandle
  if seat.exiting then return ()
  assertHasNotExited seatHandle seat
  setZoeSeatAdmin seatHandle
    { seat with exiting := true, withdrawn := some seat.currentAllocation }
  withdrawPayments seatHandle seat.currentAllocation

/-- `exitAllSeats` and `failAllSeats`, which stop at the first seat that throws. -/
def exitAllSeats (instanceHandle : InstanceHandle) : ZoeM β κ Unit := do
  let admin ← getInstanceAdmin instanceHandle
  setInstanceAdmin instanceHandle { admin with acceptingOffers := false }
  admin.zoeSeatAdmins.forM exit

def stopAcceptingOffers (instanceHandle : InstanceHandle) : ZoeM β κ Unit := do
  let admin ← getInstanceAdmin instanceHandle
  setInstanceAdmin instanceHandle { admin with acceptingOffers := false }

def exitZoeSeatAdmin (instanceHandle : InstanceHandle) (seatHandle : SeatHandle) :
    ZoeM β κ Unit := do
  let admin ← getInstanceAdmin instanceHandle
  setInstanceAdmin instanceHandle
    { admin with zoeSeatAdmins := admin.zoeSeatAdmins.filter (· ≠ seatHandle) }

/-- The payouts are stored when all of them are there; either way the seat has
exited then. -/
def finalPayouts (seatHandle : SeatHandle) : ZoeM β κ Unit := do
  let seat ← getZoeSeatAdmin seatHandle
  let payments := (← get).withdrawals.filter fun w => w.seatHandle = seatHandle
  if payments.all fun w => w.settlement = .fulfilled then
    setZoeSeatAdmin seatHandle { seat with payouts := seat.withdrawn }
  exitZoeSeatAdmin seat.instanceHandle seatHandle

section Methods

variable (issuers : Issuers β κ)

/-! ## Messages from a contract facet -/

def makeNoEscrowSeat (instanceHandle : InstanceHandle) (seatData : SeatData β κ) :
    ZoeM β κ Unit := do
  if ¬ amountKeywordRecordShape issuers.lib seatData.initialAllocation then throw .interfaceGuard
  addZoeSeatAdmin instanceHandle seatData.seatHandle
  initZoeSeatAdmin instanceHandle seatData

def replaceAllocations (seatHandleAllocations : List (SeatHandle × Allocation β κ)) :
    ZoeM β κ Unit := do
  if ¬ seatHandleAllocations.all fun e => amountKeywordRecordShape issuers.lib e.2 then
    throw .interfaceGuard
  seatHandleAllocations.forM fun e => replaceAllocation e.1 e.2

/-- The mint's payment goes to the pooled purse of its brand. -/
def mintAndEscrow (brand : β) (totalToMint : Amount β κ) : ZoeM β κ Unit := do
  if ¬ amountShape issuers.lib totalToMint then throw .interfaceGuard
  let balance ← orThrow .notFound ((← get).brandToPurse.lookup brand)
  let balance ← orThrow .mintFailed (Purse.mintInto (issuers.issuer brand) balance totalToMint)
  modify fun s => { s with brandToPurse := s.brandToPurse.insert brand balance }

def withdrawAndBurn (brand : β) (totalToBurn : Amount β κ) : ZoeM β κ Unit := do
  if ¬ amountShape issuers.lib totalToBurn then throw .interfaceGuard
  let balance ← orThrow .notFound ((← get).brandToPurse.lookup brand)
  let balance ← orThrow .burnFailed (Purse.withdraw (issuers.issuer brand) balance totalToBurn)
  modify fun s => { s with brandToPurse := s.brandToPurse.insert brand balance }

def receive (instanceHandle : InstanceHandle) : ZoeMessage β κ → ZoeM β κ Unit
  | .makeNoEscrowSeat seatData => makeNoEscrowSeat issuers instanceHandle seatData
  | .exitSeat seatHandle => exit seatHandle
  | .failSeat seatHandle => exit seatHandle
  | .exitAllSeats => exitAllSeats instanceHandle
  | .failAllSeats => exitAllSeats instanceHandle
  | .stopAcceptingOffers => stopAcceptingOffers instanceHandle
  | .replaceAllocations seatHandleAllocations => replaceAllocations issuers seatHandleAllocations
  | .mintAndEscrow brand totalToMint => mintAndEscrow issuers brand totalToMint
  | .withdrawAndBurn brand totalToBurn => withdrawAndBurn issuers brand totalToBurn

/-! ## Offers -/

/-- The deposits that are asked for, and whether none of the requests threw. -/
def askForDeposits (brandToPurse : Table β (Amount β κ)) (payments : List Keyword) :
    List (Keyword × Amount β κ) → List Keyword × Bool
  | [] => ([], true)
  | (keyword, amount) :: entries =>
      if keyword ∈ payments ∧ brandToPurse.has amount.brand then
        let (keywords, complete) := askForDeposits brandToPurse payments entries
        (keyword :: keywords, complete)
      else ([], false)

/-- The beginning of `depositPayments`; the payments are known by their keywords. -/
def depositPayments (instanceHandle : InstanceHandle) (proposal : ProposalRecord β κ)
    (payments : List Keyword) : ZoeM β κ Unit := do
  if ¬ payments.all assertKeywordName then throw .paymentMismatch
  if ¬ payments.all proposal.give.has then throw .paymentMismatch
  let s ← get
  let (depositing, alive) := askForDeposits s.brandToPurse payments proposal.give.entries
  modify fun s => { s with
    nextOffer := s.nextOffer + 1
    offers := s.offers.insert s.nextOffer
      { instanceHandle, proposal, depositing, deposits := ∅, alive } }

def offer (instanceHandle : InstanceHandle) (want give : Record Keyword (AmountPattern β κ))
    (payments : List Keyword) : ZoeM β κ Unit := do
  let admin ← getInstanceAdmin instanceHandle
  if ¬ admin.acceptingOffers then throw .notAcceptingOffers
  let s ← get
  let proposal ← orThrow .invalidProposal
    (cleanProposal issuers.lib s.brandToIssuerRecord.lookup want give)
  depositPayments instanceHandle proposal payments

/-- The empty amounts of the want side, overridden by the deposits. -/
def initialAllocation (o : Offer β κ) : Option (Allocation β κ) := do
  let wants ← o.proposal.want.mapM fun _ amount =>
    match amount with
    | .amount a => AmountMath.makeEmptyFromAmount issuers.lib a
    | .other => none
  let deposits ← o.proposal.give.mapM fun keyword _ => o.deposits.lookup keyword
  return wants.spread deposits

def makeUserSeat (instanceHandle : InstanceHandle) (proposal : ProposalRecord β κ)
    (initialAllocation : Allocation β κ) : ZoeM β κ Unit := do
  let seatHandle := .zoe (← get).nextSeatHandle
  modify fun s => { s with nextSeatHandle := s.nextSeatHandle + 1 }
  let seatData := { proposal, initialAllocation, seatHandle }
  initZoeSeatAdmin instanceHandle seatData
  addZoeSeatAdmin instanceHandle seatHandle
  if ¬ (← getInstanceAdmin instanceHandle).handleOfferObj then throw .incompleteSetup
  modify fun s => { s with sent := s.sent ++ [(instanceHandle, .handleOffer seatData)] }

/-- The end of `depositPayments`, when every deposit has been answered. -/
def depositsFulfilled (o : Offer β κ) : ZoeM β κ Unit := do
  let initialAllocation ← orThrow .invalidProposal (initialAllocation issuers o)
  makeUserSeat o.instanceHandle o.proposal initialAllocation

/-! ## Issuers -/

/-- `storeIssuerRecord`: what is stored already stays. -/
def storeIssuerRecord (brand : β) : ZoeM β κ Unit :=
  modify fun s => { s with
    brandToIssuerRecord :=
      if s.brandToIssuerRecord.has brand then s.brandToIssuerRecord
      else s.brandToIssuerRecord.insert brand (issuers.issuer brand).assetKind }

/-- `createPurse` and `provideLocalPurse` -/
def createPurse (brand : β) : ZoeM β κ Unit :=
  modify fun s => { s with
    brandToPurse :=
      if s.brandToPurse.has brand then s.brandToPurse
      else s.brandToPurse.insert brand
        (AmountMath.makeEmpty issuers.lib brand (issuers.issuer brand).assetKind) }

def sendIssuerRecord (instanceHandle : InstanceHandle) (brand : β) (zoeMint : Bool) :
    ZoeM β κ Unit := do
  let assetKind ← orThrow .notFound ((← get).brandToIssuerRecord.lookup brand)
  modify fun s => { s with
    sent := s.sent ++ [(instanceHandle, .recordIssuer brand assetKind zoeMint)] }

/-- The end of `saveIssuer`, when the issuer is stored and has its purse. -/
def saveIssuer (instanceHandle : InstanceHandle) (brand : β) : ZoeM β κ Unit := do
  if ¬ (← get).brandToPurse.has brand then throw .notFound
  sendIssuerRecord instanceHandle brand false

def wrapIssuerKitWithZoeMint (instanceHandle : InstanceHandle) (brand : β) : ZoeM β κ Unit := do
  storeIssuerRecord issuers brand
  createPurse issuers brand
  sendIssuerRecord instanceHandle brand true

end Methods

end ZoeService

end AgoricSdk.Zoe
