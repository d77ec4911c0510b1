import AgoricSdk.Lib.Transition
import AgoricSdk.Zoe.Service

/-!
Runs of the Zoe service with any number of contract instances. Every step is
one turn somewhere: a user makes an offer, a purse answers, a contract calls its
facet, a message arrives. What a facet sends arrives in the order of sending and
arbitrarily late. A contract may do anything that its facet offers, its vat may
be terminated at any time, and a purse whose issuer is not well-behaved may
answer anything.
-/

namespace AgoricSdk.Zoe

open ERTP StateProgram

structure ZoeSystem (β κ : Type) where
  zoe : ZoeService β κ
  vats : Table InstanceHandle (ZCF β κ)
  nextInstance : InstanceHandle

inductive ZoeAction (β κ : Type) where
  | storeIssuer (brand : β)
  | createPurse (brand : β)
  | startInstance (brands : List β)
  | initDelayedState (instanceHandle : InstanceHandle)
  | saveIssuer (instanceHandle : InstanceHandle) (brand : β)
  | wrapIssuerKitWithZoeMint (instanceHandle : InstanceHandle) (brand : β)
  | offer (instanceHandle : InstanceHandle) (want give : Record Keyword (AmountPattern β κ))
      (payments : List Keyword)
  /-- `report` is what the purse answers, if it accepts the payment -/
  | settleDeposit (n : Nat) (keyword : Keyword) (report : Option (Amount β κ))
  | fulfillOffer (n : Nat)
  | settleWithdrawal (n : Nat) (fulfilled : Bool)
  | finalPayouts (seatHandle : SeatHandle)
  /-- the `n`-th of the messages that Zoe has sent -/
  | deliverToZCF (n : Nat)
  /-- the first message that the facet has sent -/
  | deliverToZoe (instanceHandle : InstanceHandle)
  | call (instanceHandle : InstanceHandle) (call : ZCF.Call β κ)
  | terminate (instanceHandle : InstanceHandle)
  /-- the instance completion watcher, once the vat is gone -/
  | completionWatched (instanceHandle : InstanceHandle)

variable {β κ : Type} [DecidableEq β] [DecidableEq κ] (issuers : Issuers β κ)

namespace ZoeSystem

variable (s : ZoeSystem β κ)

/-- A turn in the Zoe vat. -/
def inZoe (m : ZoeM β κ Unit) : ZoeSystem β κ := { s with zoe := finalState m s.zoe }

def setVat (instanceHandle : InstanceHandle) (vat : ZCF β κ) : ZoeSystem β κ :=
  { s with vats := s.vats.insert instanceHandle vat }

def startInstance (brands : List β) : ZoeSystem β κ where
  zoe := { s.zoe with
    instanceToInstanceAdmin := s.zoe.instanceToInstanceAdmin.insert s.nextInstance
      { handleOfferObj := false, acceptingOffers := true, zoeSeatAdmins := [] } }
  vats := s.vats.insert s.nextInstance
    { instanceHandle := s.nextInstance
      activeZCFSeats := ∅
      zcfSeatToSeatHandle := ∅
      proposals := ∅
      brandToIssuerRecord := brands.foldl
        (fun records brand => records.insert brand (issuers.issuer brand).assetKind) ∅
      zcfMints := []
      nextZCFSeat := 0
      nextSeatHandle := 0
      status := .running
      sent := [] }
  nextInstance := s.nextInstance + 1

/-- One purse answers one deposit. -/
def settleDeposit (n : Nat) (keyword : Keyword) (report : Option (Amount β κ)) :
    Option (ZoeSystem β κ) := do
  let o ← s.zoe.offers.lookup n
  if keyword ∈ o.depositing then
    let amount ← o.proposal.give.get keyword
    let settled := { o with depositing := o.depositing.erase keyword }
    match report with
    | none =>
        some { s with zoe := { s.zoe with
          offers := s.zoe.offers.insert n { settled with alive := false } } }
    | some reported =>
        let offers := s.zoe.offers.insert n
          { settled with deposits := o.deposits.insert keyword reported }
        if issuers.wellBehaved amount.brand then
          -- the answer is what the payment held, which had to be the amount
          if reported = amount then
            let balance ← s.zoe.brandToPurse.lookup amount.brand
            let balance ← Purse.deposit (issuers.issuer amount.brand) balance amount
            some { s with zoe := { s.zoe with
              offers
              brandToPurse := s.zoe.brandToPurse.insert amount.brand balance } }
          else none
        else some { s with zoe := { s.zoe with offers } }
  else none

/-- One purse answers one withdrawal. -/
def settleWithdrawal (n : Nat) (fulfilled : Bool) : Option (ZoeSystem β κ) := do
  let w ← s.zoe.withdrawals[n]?
  if w.settlement = .pending then
    let settled := s.zoe.withdrawals.set n
      { w with settlement := if fulfilled then .fulfilled else .rejected }
    if issuers.wellBehaved w.amount.brand then
      let balance ← s.zoe.brandToPurse.lookup w.amount.brand
      match Purse.withdraw (issuers.issuer w.amount.brand) balance w.amount, fulfilled with
      | some balance, true =>
          some { s with zoe := { s.zoe with
            withdrawals := settled
            brandToPurse := s.zoe.brandToPurse.insert w.amount.brand balance } }
      | none, false => some { s with zoe := { s.zoe with withdrawals := settled } }
      | _, _ => none
    else some { s with zoe := { s.zoe with withdrawals := settled } }
  else none

/-- Whether the payouts of an exiting seat have settled: all withdrawals were
asked for, and either all of them are answered or one is rejected. -/
def payoutsSettled (seatHandle : SeatHandle) : Bool :=
  match s.zoe.seatHandleToZoeSeatAdmin.lookup seatHandle with
  | none => false
  | some seat =>
      let payments := s.zoe.withdrawals.filter fun w => w.seatHandle = seatHandle
      seat.withdrawn.any (fun a => a.keys.all fun k => payments.any fun w => w.keyword = k) &&
        ((payments.all fun w => w.settlement ≠ .pending) ||
          payments.any fun w => w.settlement = .rejected) &&
        (s.zoe.instanceToInstanceAdmin.lookup seat.instanceHandle).any fun admin =>
          seatHandle ∈ admin.zoeSeatAdmins

def deliverToZCF (n : Nat) : Option (ZoeSystem β κ) := do
  let (instanceHandle, message) ← s.zoe.sent[n]?
  let vat ← s.vats.lookup instanceHandle
  if vat.status = .running then
    let vat := finalState (ZCF.receive issuers.lib message) vat
    some { s.setVat instanceHandle vat with zoe := { s.zoe with sent := s.zoe.sent.eraseIdx n } }
  else none

def deliverToZoe (instanceHandle : InstanceHandle) : Option (ZoeSystem β κ) := do
  let vat ← s.vats.lookup instanceHandle
  match vat.sent with
  | [] => none
  | message :: sent =>
      some ((s.setVat instanceHandle { vat with sent }).inZoe
        (ZoeService.receive issuers instanceHandle message))

def call (instanceHandle : InstanceHandle) (call : ZCF.Call β κ) : Option (ZoeSystem β κ) := do
  let vat ← s.vats.lookup instanceHandle
  if vat.status ≠ .terminated ∧ call.zcfMint.all (· ∈ vat.zcfMints) then
    some (s.setVat instanceHandle (finalState (call.run issuers.lib) vat))
  else none

def step : ZoeAction β κ → Option (ZoeSystem β κ)
  | .storeIssuer brand => some (s.inZoe (ZoeService.storeIssuerRecord issuers brand))
  | .createPurse brand =>
      if s.zoe.brandToIssuerRecord.has brand then
        some (s.inZoe (ZoeService.createPurse issuers brand))
      else none
  | .startInstance brands =>
      if brands.all fun brand => s.zoe.brandToIssuerRecord.has brand ∧ s.zoe.brandToPurse.has brand
      then some (s.startInstance issuers brands)
      else none
  | .initDelayedState instanceHandle =>
      (s.zoe.instanceToInstanceAdmin.lookup instanceHandle).map fun admin =>
        s.inZoe (ZoeService.setInstanceAdmin instanceHandle { admin with handleOfferObj := true })
  | .saveIssuer instanceHandle brand => some (s.inZoe (ZoeService.saveIssuer instanceHandle brand))
  | .wrapIssuerKitWithZoeMint instanceHandle brand =>
      if issuers.wellBehaved brand then
        some (s.inZoe (ZoeService.wrapIssuerKitWithZoeMint issuers instanceHandle brand))
      else none
  | .offer instanceHandle want give payments =>
      some (s.inZoe (ZoeService.offer issuers instanceHandle want give payments))
  | .settleDeposit n keyword report => s.settleDeposit issuers n keyword report
  | .fulfillOffer n => do
      let o ← s.zoe.offers.lookup n
      if o.alive ∧ o.depositing = [] then
        some (inZoe { s with zoe := { s.zoe with offers := s.zoe.offers.erase n } }
          (ZoeService.depositsFulfilled issuers o))
      else none
  | .settleWithdrawal n fulfilled => s.settleWithdrawal issuers n fulfilled
  | .finalPayouts seatHandle =>
      if s.payoutsSettled seatHandle then some (s.inZoe (ZoeService.finalPayouts seatHandle))
      else none
  | .deliverToZCF n => s.deliverToZCF issuers n
  | .deliverToZoe instanceHandle => s.deliverToZoe issuers instanceHandle
  | .call instanceHandle method => s.call issuers instanceHandle method
  | .terminate instanceHandle =>
      (s.vats.lookup instanceHandle).map fun vat =>
        s.setVat instanceHandle { vat with status := .terminated }
  | .completionWatched instanceHandle => do
      let vat ← s.vats.lookup instanceHandle
      if vat.status = .terminated then
        some (s.inZoe (ZoeService.exitAllSeats instanceHandle))
      else none

end ZoeSystem

/-- Zoe before the first instance. -/
def emptyZoe : ZoeSystem β κ where
  zoe :=
    { brandToIssuerRecord := ∅
      brandToPurse := ∅
      instanceToInstanceAdmin := ∅
      seatHandleToZoeSeatAdmin := ∅
      nextSeatHandle := 0
      offers := ∅
      nextOffer := 0
      withdrawals := []
      sent := [] }
  vats := ∅
  nextInstance := 0

def zoeSystem : TransitionSystem (ZoeSystem β κ) (ZoeAction β κ) where
  init s := s = emptyZoe
  step s a := s.step issuers a

end AgoricSdk.Zoe
