import AgoricSdk.Lib.Program
import AgoricSdk.Zoe.Allocation

/-!
The contract facet (ZCF) of one contract instance: the seats that the contract
knows, with their allocations, and the methods through which it moves assets.
What ZCF tells Zoe is sent in order and arrives later. A method that throws
keeps the writes and the sends it made before.
-/

namespace AgoricSdk.Zoe

open ERTP StateProgram

abbrev InstanceHandle := Nat

/-- Handles are made by Zoe for offers and by ZCF for the seats that a contract
asks for. -/
inductive SeatHandle where
  | zoe (n : Nat)
  | zcf (instanceHandle : InstanceHandle) (n : Nat)
  deriving DecidableEq

structure SeatData (β κ : Type) where
  proposal : ProposalRecord β κ
  initialAllocation : Allocation β κ
  seatHandle : SeatHandle

/-- What ZCF sends to its instance admin and to its mints in Zoe. -/
inductive ZoeMessage (β κ : Type) where
  | makeNoEscrowSeat (seatData : SeatData β κ)
  | exitSeat (seatHandle : SeatHandle)
  | failSeat (seatHandle : SeatHandle)
  | exitAllSeats
  | failAllSeats
  | stopAcceptingOffers
  | replaceAllocations (seatHandleAllocations : List (SeatHandle × Allocation β κ))
  | mintAndEscrow (brand : β) (totalToMint : Amount β κ)
  | withdrawAndBurn (brand : β) (totalToBurn : Amount β κ)

/-- What Zoe tells ZCF: a new seat, or an issuer that ZCF asked it to save or to
make; `zoeMint` when ZCF gets the mint as well. -/
inductive ZCFMessage (β κ : Type) where
  | handleOffer (seatData : SeatData β κ)
  | recordIssuer (brand : β) (assetKind : AssetKind) (zoeMint : Bool)

inductive ZCFFault where
  | interfaceGuard
  | seatHasBeenExited
  | seatNotRecognized
  | notFound
  | allocationMath
  | rightsNotConserved
  | offerSafetyViolated

/-- `exiting` from the call of `exitVat` to the end of the crank. -/
inductive VatStatus where
  | running
  | exiting
  | terminated
  deriving DecidableEq

structure ZCF (β κ : Type) where
  instanceHandle : InstanceHandle
  activeZCFSeats : Table ZCFSeat (Allocation β κ)
  zcfSeatToSeatHandle : Table ZCFSeat SeatHandle
  /-- the state of the seat objects -/
  proposals : Table ZCFSeat (ProposalRecord β κ)
  brandToIssuerRecord : Table β AssetKind
  /-- the brands whose `ZCFMint` the contract has -/
  zcfMints : List β
  nextZCFSeat : ZCFSeat
  nextSeatHandle : Nat
  status : VatStatus
  /-- sent and not yet delivered -/
  sent : List (ZoeMessage β κ)

abbrev ZcfM (β κ : Type) := EStateM ZCFFault (ZCF β κ)

/-- The seat argument of a mint's methods: left out, a seat of this ZCF, or any
other object that answers as a seat does. -/
inductive SeatArg (β κ : Type) where
  | absent
  | seat (zcfSeat : ZCFSeat)
  | foreign (hasExited : Bool) (currentAllocation : Allocation β κ) (offerSafe : Bool)

variable {β κ : Type} [DecidableEq β] [DecidableEq κ]

def ZcfM.orThrow {α : Type} (e : ZCFFault) : Option α → ZcfM β κ α
  | some a => return a
  | none => throw e

def ZcfM.send (message : ZoeMessage β κ) : ZcfM β κ Unit :=
  modify fun s => { s with sent := s.sent ++ [message] }

namespace ZCF

open ZcfM

/-! ## The end of the vat -/

def dropAllReferences : ZcfM β κ Unit :=
  modify fun s => { s with activeZCFSeats := ∅, zcfSeatToSeatHandle := ∅ }

def exitVat : ZcfM β κ Unit := modify fun s => { s with status := .exiting }

def shutdown : ZcfM β κ Unit := do
  send .exitAllSeats
  dropAllReferences
  exitVat

def shutdownWithFailure : ZcfM β κ Unit := do
  send .failAllSeats
  dropAllReferences
  exitVat

/-- `try { … } catch (err) { shutdownWithFailure(err); throw err; }` -/
def orShutdown (m : ZcfM β κ Unit) : ZcfM β κ Unit := do
  match ← attempt m with
  | .ok _ => return ()
  | .error err =>
      shutdownWithFailure
      throw err

/-! ## Seats -/

def assertActive (zcfSeat : ZCFSeat) : ZcfM β κ Unit := do
  if ¬ (← get).activeZCFSeats.has zcfSeat then throw .seatHasBeenExited

def doExitSeat (zcfSeat : ZCFSeat) : ZcfM β κ Unit := do
  assertActive zcfSeat
  modify fun s => { s with activeZCFSeats := s.activeZCFSeats.erase zcfSeat }

def getSeatHandle (zcfSeat : ZCFSeat) : ZcfM β κ SeatHandle := do
  orThrow .notFound ((← get).zcfSeatToSeatHandle.lookup zcfSeat)

def deleteSeatHandle (zcfSeat : ZCFSeat) : ZcfM β κ Unit :=
  modify fun s => { s with zcfSeatToSeatHandle := s.zcfSeatToSeatHandle.erase zcfSeat }

def makeZCFSeat (seatData : SeatData β κ) : ZcfM β κ ZCFSeat := do
  let zcfSeat := (← get).nextZCFSeat
  modify fun s => { s with
    nextZCFSeat := zcfSeat + 1
    proposals := s.proposals.insert zcfSeat seatData.proposal
    activeZCFSeats := s.activeZCFSeats.insert zcfSeat seatData.initialAllocation
    zcfSeatToSeatHandle := s.zcfSeatToSeatHandle.insert zcfSeat seatData.seatHandle }
  return zcfSeat

/-- `exit` of a seat. -/
def exit (zcfSeat : ZCFSeat) : ZcfM β κ Unit := do
  doExitSeat zcfSeat
  send (.exitSeat (← getSeatHandle zcfSeat))
  deleteSeatHandle zcfSeat

/-- `fail` of a seat. -/
def fail (zcfSeat : ZCFSeat) : ZcfM β κ Unit := do
  if (← get).activeZCFSeats.has zcfSeat then
    doExitSeat zcfSeat
    send (.failSeat (← getSeatHandle zcfSeat))
    deleteSeatHandle zcfSeat

def makeEmptySeatKit : ZcfM β κ ZCFSeat := do
  let s ← get
  let seatData : SeatData β κ :=
    { proposal := { give := ∅, want := ∅ }
      initialAllocation := ∅
      seatHandle := .zcf s.instanceHandle s.nextSeatHandle }
  modify fun s => { s with nextSeatHandle := s.nextSeatHandle + 1 }
  let zcfSeat ← makeZCFSeat seatData
  send (.makeNoEscrowSeat seatData)
  return zcfSeat

/-- `activeZCFSeats.set(seat, allocation)` -/
def setAllocation (zcfSeat : ZCFSeat) (allocation : Allocation β κ) : ZcfM β κ Unit := do
  if (← get).activeZCFSeats.has zcfSeat then
    modify fun s => { s with activeZCFSeats := s.activeZCFSeats.insert zcfSeat allocation }
  else throw .notFound

section Methods

variable (lib : StoreLib κ)

/-! ## Reallocation -/

/-- `TransferPartShape` -/
def transferPartShape (part : TransferPart β κ) : Bool :=
  part.fromAmounts.all (amountKeywordRecordShape lib) &&
    part.toAmounts.all (amountKeywordRecordShape lib)

/-- Whether the new allocation of a seat is offer safe for its proposal. -/
def seatIsOfferSafe (s : ZCF β κ) (zcfSeat : ZCFSeat) (allocation : Allocation β κ) :
    Option Bool := do
  isOfferSafe lib (← s.proposals.lookup zcfSeat) allocation

/-- The new allocations, if all the conditions on the transfers are met. -/
def checkRearrange (transfers : List (TransferPart β κ)) :
    ZcfM β κ (List (ZCFSeat × Allocation β κ)) := do
  let s ← get
  let newAllocations ← orThrow .allocationMath
    (makeAllocationMap lib s.activeZCFSeats.lookup transfers)
  newAllocations.keys.forM fun zcfSeat => do
    assertActive zcfSeat
    if ¬ s.zcfSeatToSeatHandle.has zcfSeat then throw .seatNotRecognized
  let previousAllocations ← newAllocations.keys.mapM fun zcfSeat =>
    orThrow .seatHasBeenExited (s.activeZCFSeats.lookup zcfSeat)
  orThrow .rightsNotConserved (assertRightsConserved lib
    (previousAllocations.flatMap Record.values) (newAllocations.values.flatMap Record.values))
  newAllocations.entries.forM fun e => do
    if ¬ (← orThrow .allocationMath (seatIsOfferSafe lib s e.1 e.2)) then
      throw .offerSafetyViolated
  return newAllocations.entries

def atomicRearrange (transfers : List (TransferPart β κ)) : ZcfM β κ Unit := do
  if ¬ transfers.all (transferPartShape lib) then throw .interfaceGuard
  let newAllocations ← checkRearrange lib transfers
  let seatHandleAllocations ← newAllocations.mapM fun e => do
    return (← getSeatHandle e.1, e.2)
  orShutdown do
    newAllocations.forM fun e => setAllocation e.1 e.2
    send (.replaceAllocations seatHandleAllocations)

/-- `none` is an object that is not a seat of this ZCF. -/
def reallocate (zcfSeat : Option ZCFSeat) (newAllocation : Allocation β κ) : ZcfM β κ Unit := do
  if ¬ amountKeywordRecordShape lib newAllocation then throw .interfaceGuard
  orShutdown do
    let zcfSeat ← orThrow .notFound zcfSeat
    setAllocation zcfSeat newAllocation
    send (.replaceAllocations [(← getSeatHandle zcfSeat, newAllocation)])

/-! ## Mints -/

/-- What a mint's method learns from the seat it is given: the current
allocation, if the seat is active. -/
def SeatArg.currentAllocation : SeatArg β κ → ZcfM β κ (Allocation β κ)
  | .absent => throw .interfaceGuard
  | .seat zcfSeat => do
      orThrow .seatHasBeenExited ((← get).activeZCFSeats.lookup zcfSeat)
  | .foreign hasExited allocation _ =>
      if hasExited then throw .seatHasBeenExited else return allocation

/-- `zcfSeat.isOfferSafe(newAllocation)`, which merges it with the current one. -/
def SeatArg.assertOfferSafe (newAllocation : Allocation β κ) : SeatArg β κ → ZcfM β κ Unit
  | .absent => throw .interfaceGuard
  | .seat zcfSeat => do
      let s ← get
      let currentAllocation ← orThrow .seatHasBeenExited (s.activeZCFSeats.lookup zcfSeat)
      if ¬ (← orThrow .allocationMath
          (seatIsOfferSafe lib s zcfSeat (currentAllocation.spread newAllocation))) then
        throw .offerSafetyViolated
  | .foreign _ _ offerSafe => do
      if ¬ offerSafe then throw .offerSafetyViolated

def SeatArg.toSeat : SeatArg β κ → Option ZCFSeat
  | .seat zcfSeat => some zcfSeat
  | _ => none

/-- The record coerced, and its sum in the mint's brand. -/
def coerceAndSum (brand : β) (record : AmountKeywordRecord β κ) :
    ZcfM β κ (AmountKeywordRecord β κ × Amount β κ) := do
  let s ← get
  let record ← orThrow .allocationMath
    (coerceAmountKeywordRecord lib s.brandToIssuerRecord.lookup (record.map .amount))
  let assetKind ← orThrow .notFound (s.brandToIssuerRecord.lookup brand)
  let total ← orThrow .allocationMath (sumAmountKeywordRecord lib record brand assetKind)
  return (record, total)

/-- `zcfSeat = makeEmptySeatKit().zcfSeat` -/
def SeatArg.orDefault : SeatArg β κ → ZcfM β κ (SeatArg β κ)
  | .absent => return .seat (← makeEmptySeatKit)
  | zcfSeat => return zcfSeat

def mintGains (brand : β) (gains : AmountKeywordRecord β κ) (zcfSeat : SeatArg β κ) :
    ZcfM β κ Unit := do
  if ¬ amountKeywordRecordShape lib gains then throw .interfaceGuard
  let zcfSeat ← SeatArg.orDefault zcfSeat
  let (gains, totalToMint) ← coerceAndSum lib brand gains
  let allocationPlusGains ← orThrow .allocationMath
    (addToAllocation lib (← SeatArg.currentAllocation zcfSeat) gains)
  SeatArg.assertOfferSafe lib allocationPlusGains zcfSeat
  send (.mintAndEscrow brand totalToMint)
  reallocate lib (SeatArg.toSeat zcfSeat) allocationPlusGains

def burnLosses (brand : β) (losses : AmountKeywordRecord β κ) (zcfSeat : SeatArg β κ) :
    ZcfM β κ Unit := do
  if ¬ amountKeywordRecordShape lib losses then throw .interfaceGuard
  let (losses, totalToBurn) ← coerceAndSum lib brand losses
  let allocationMinusLosses ← orThrow .allocationMath
    (subtractFromAllocation lib (← SeatArg.currentAllocation zcfSeat) losses)
  SeatArg.assertOfferSafe lib allocationMinusLosses zcfSeat
  reallocate lib (SeatArg.toSeat zcfSeat) allocationMinusLosses
  send (.withdrawAndBurn brand totalToBurn)

end Methods

/-! ## What happens in the vat -/

/-- A call that the contract makes. -/
inductive Call (β κ : Type) where
  | atomicRearrange (transfers : List (TransferPart β κ))
  | mintGains (brand : β) (gains : AmountKeywordRecord β κ) (zcfSeat : SeatArg β κ)
  | burnLosses (brand : β) (losses : AmountKeywordRecord β κ) (zcfSeat : SeatArg β κ)
  | makeEmptySeatKit
  | exit (zcfSeat : ZCFSeat)
  | fail (zcfSeat : ZCFSeat)
  | shutdown
  | shutdownWithFailure
  | stopAcceptingOffers

/-- The mint that the call is made on. -/
def Call.zcfMint : Call β κ → Option β
  | .mintGains brand _ _ | .burnLosses brand _ _ => some brand
  | _ => none

variable (lib : StoreLib κ)

def Call.run : Call β κ → ZcfM β κ Unit
  | .atomicRearrange transfers => ZCF.atomicRearrange lib transfers
  | .mintGains brand gains zcfSeat => ZCF.mintGains lib brand gains zcfSeat
  | .burnLosses brand losses zcfSeat => ZCF.burnLosses lib brand losses zcfSeat
  | .makeEmptySeatKit => (fun _ => ()) <$> ZCF.makeEmptySeatKit
  | .exit zcfSeat => ZCF.exit zcfSeat
  | .fail zcfSeat => ZCF.fail zcfSeat
  | .shutdown => ZCF.shutdown
  | .shutdownWithFailure => ZCF.shutdownWithFailure
  | .stopAcceptingOffers => send .stopAcceptingOffers

/-- `handleOffer`, whose guard checks the shape of the initial allocation. -/
def handleOffer (seatData : SeatData β κ) : ZcfM β κ Unit := do
  if ¬ amountKeywordRecordShape lib seatData.initialAllocation then throw .interfaceGuard
  let _ ← makeZCFSeat seatData

/-- `recordIssuer`: an issuer that is stored already stays as it is. -/
def recordIssuer (brand : β) (assetKind : AssetKind) (zoeMint : Bool) : ZcfM β κ Unit :=
  modify fun s => { s with
    brandToIssuerRecord :=
      if s.brandToIssuerRecord.has brand then s.brandToIssuerRecord
      else s.brandToIssuerRecord.insert brand assetKind
    zcfMints := if zoeMint then s.zcfMints ++ [brand] else s.zcfMints }

def receive : ZCFMessage β κ → ZcfM β κ Unit
  | .handleOffer seatData => handleOffer lib seatData
  | .recordIssuer brand assetKind zoeMint => recordIssuer brand assetKind zoeMint

end ZCF

end AgoricSdk.Zoe
