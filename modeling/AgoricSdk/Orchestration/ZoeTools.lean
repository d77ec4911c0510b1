import AgoricSdk.Lib.Transition
import AgoricSdk.Zoe.AllocationSpecs
import AgoricSdk.Zoe.FacetEffects

/-!
`localTransfer` and `withdrawToSeat` of the orchestration library, with the
`depositToSeat` that both of them use. What they ask of the account, of the
escrow purses and of Zoe is asked for in one turn and answered in another one,
and the contract may use its seats in between. Every keyword of the amounts has
a leg, which says where its asset is and how the last request about it stands.
-/

namespace AgoricSdk.Orchestration

open ERTP Zoe StateProgram

/-- The account at the other end of a transfer. Its operations may fail. -/
structure LocalAccount (β κ σ : Type) where
  deposit : σ → Amount β κ → Option σ
  /-- a payment of the amount is made of what the account holds -/
  withdraw : σ → Amount β κ → Option σ
  /-- how much of each asset of a brand the account holds -/
  balance : σ → β → Option κ → Nat

inductive Method where
  | localTransfer
  | withdrawToSeat
  deriving DecidableEq

/-- In a payment, or in the escrow of a temporary seat, an asset is with neither. -/
inductive Place where
  | seat
  | account
  | neither
  deriving DecidableEq

structure Leg (β κ : Type) where
  keyword : Keyword
  amount : Amount β κ
  place : Place
  settlement : Settlement

/-- What the method waits for. -/
inductive Phase where
  | userSeat (tempSeat : ZCFSeat)
  | payouts
  | deposits
  /-- the deposited payments are withdrawn again -/
  | undoDeposits
  | withdrawals
  /-- the withdrawn payments are deposited again -/
  | undoWithdrawals
  /-- `E(zoe).offer(invitation, proposal, payments)` -/
  | offer
  /-- the offer handler of `depositToSeat` -/
  | offerResult (tempSeat : ZCFSeat)
  | fulfilled
  | rejected
  deriving DecidableEq

structure Transfer (β κ σ : Type) where
  method : Method
  seat : ZCFSeat
  amounts : AmountKeywordRecord β κ
  zcf : ZCF β κ
  account : σ
  /-- what the seat is allotted, or what it was allotted when it exited -/
  allocation : Allocation β κ
  legs : List (Leg β κ)
  phase : Phase
  /-- the account and the allocation at the call -/
  accountBefore : σ
  allocationBefore : Allocation β κ
  /-- by how much others have changed the allocation since then -/
  reallocated : Keyword → β → Option κ → Int

variable {β κ σ : Type} [DecidableEq β] [DecidableEq κ]

/-- The units of an asset of a brand under a keyword. -/
def worthAt (keyword : Keyword) (b : β) (c : Option κ) (r : AmountKeywordRecord β κ) : Nat :=
  (r.get keyword).elim 0 (worthOf b c)

def Method.source : Method → Place
  | .localTransfer => .seat
  | .withdrawToSeat => .account

section Seats

variable (lib : StoreLib κ)

/-- One part of a rearrangement: the amounts go from one seat to the other. -/
def transferPart (fromSeat toSeat : ZCFSeat) (amounts : AmountKeywordRecord β κ) :
    TransferPart β κ where
  fromSeat := some fromSeat
  toSeat := some toSeat
  fromAmounts := some amounts
  toAmounts := none

def atomicTransfer (fromSeat toSeat : ZCFSeat) (amounts : AmountKeywordRecord β κ) :
    ZcfM β κ Unit :=
  ZCF.atomicRearrange lib [transferPart fromSeat toSeat amounts]

/-- The middle of `localTransfer`. -/
def releaseFromSeat (srcSeat tempSeat : ZCFSeat) (amounts : AmountKeywordRecord β κ) :
    ZcfM β κ Unit := do
  atomicTransfer lib srcSeat tempSeat amounts
  ZCF.exit tempSeat

def reallocateAfterDeposit (recipientSeat tempSeat : ZCFSeat)
    (amounts : AmountKeywordRecord β κ) : ZcfM β κ Unit := do
  atomicTransfer lib tempSeat recipientSeat amounts
  ZCF.exit tempSeat

/-- The checks that ZCF makes before it transfers the amounts. -/
def canTransfer (zcf : ZCF β κ) (fromSeat toSeat : ZCFSeat) (amounts : AmountKeywordRecord β κ) :
    Bool :=
  ZCF.transferPartShape lib (transferPart fromSeat toSeat amounts) &&
    match ZCF.checkRearrange lib [transferPart fromSeat toSeat amounts] zcf with
    | .ok _ _ => true
    | .error _ _ => false

end Seats

namespace Transfer

variable (t : Transfer β κ σ)

/-- The state after ZCF has moved, with the allocation that the seat has then. -/
def withZcf (zcf : ZCF β κ) : Transfer β κ σ :=
  { t with
    zcf
    allocation := (zcf.activeZCFSeats.lookup t.seat).getD t.allocation }

/-- ZCF is used by others. -/
def others (zcf : ZCF β κ) : Transfer β κ σ :=
  { t.withZcf zcf with
    reallocated := fun keyword b c => t.reallocated keyword b c +
      ((worthAt keyword b c (t.withZcf zcf).allocation : Int) - worthAt keyword b c t.allocation) }

def setLeg (i : Nat) (leg : Leg β κ) : Transfer β κ σ := { t with legs := t.legs.set i leg }

/-- All assets are elsewhere now. -/
def moveAll (place : Place) (phase : Phase) : Transfer β κ σ :=
  { t with
    legs := t.legs.map fun leg => { leg with place, settlement := .pending }
    phase }

/-- Something is asked for the legs whose last request stands so. -/
def askAgain (settlement : Settlement) (phase : Phase) : Transfer β κ σ :=
  { t with
    legs := t.legs.map fun leg =>
      if leg.settlement = settlement then { leg with settlement := .pending } else leg
    phase }

/-- The other legs have their payments already. -/
def keepPayments : Transfer β κ σ :=
  { t with
    legs := t.legs.map fun leg =>
      if leg.settlement = .rejected then { leg with settlement := .fulfilled } else leg }

def settled : Bool := t.legs.all fun leg => leg.settlement ≠ .pending

def someRejected : Bool := t.legs.any fun leg => leg.settlement = .rejected

def hasExited : Bool := ¬ t.zcf.activeZCFSeats.has t.seat

/-- The beginning of `depositToSeat`. -/
def depositToSeat : Transfer β κ σ :=
  if t.hasExited then { t with phase := .rejected } else t.moveAll .neither .offer

/-- How the method ends after its payments were deposited to the seat. -/
def afterDeposit : Phase :=
  match t.method with
  -- one or more deposits to the account failed
  | .localTransfer => .rejected
  | .withdrawToSeat => .fulfilled

/-- What the method does when all that it waited for is there. -/
def proceed : Option (Transfer β κ σ) :=
  match t.phase with
  | .payouts => some (t.moveAll .neither .deposits)
  | .deposits =>
    if t.someRejected then some ((t.askAgain .fulfilled .undoDeposits).keepPayments)
    else some { t with phase := .fulfilled }
  | .undoDeposits => some t.depositToSeat
  | .withdrawals =>
    if t.someRejected then some (t.askAgain .fulfilled .undoWithdrawals)
    else some t.depositToSeat
  | .undoWithdrawals => some { t with phase := .rejected }
  | _ => none

/-- One answer about the `i`-th leg. What undoes a step that succeeded succeeds. -/
def settle (localAccount : LocalAccount β κ σ) (i : Nat) (fulfilled : Bool) :
    Option (Transfer β κ σ) := do
  let leg ← t.legs[i]?
  if leg.settlement = .pending then
    match t.phase, fulfilled with
    | .payouts, true | .offer, true => some (t.setLeg i { leg with settlement := .fulfilled })
    -- the other payments are forgotten
    | .payouts, false | .offer, false => some { t with phase := .rejected }
    | .deposits, false | .withdrawals, false =>
      some (t.setLeg i { leg with settlement := .rejected })
    | .deposits, true | .undoWithdrawals, true => do
      let account ← localAccount.deposit t.account leg.amount
      some { t.setLeg i { leg with place := .account, settlement := .fulfilled } with account }
    | .withdrawals, true | .undoDeposits, true => do
      let account ← localAccount.withdraw t.account leg.amount
      some { t.setLeg i { leg with place := .neither, settlement := .fulfilled } with account }
    | _, _ => none
  else none

/-- The call of the method. A seat that has exited was allotted `payout` at the end. -/
def start (method : Method) (seat : ZCFSeat) (amounts : AmountKeywordRecord β κ) (zcf : ZCF β κ)
    (account : σ) (payout : Allocation β κ) : Transfer β κ σ :=
  let allocation := (zcf.activeZCFSeats.lookup seat).getD payout
  let t : Transfer β κ σ :=
    { method, seat, amounts, zcf, account, allocation
      legs := amounts.entries.map fun e =>
        { keyword := e.1, amount := e.2, place := method.source, settlement := .pending }
      phase := .rejected
      accountBefore := account
      allocationBefore := allocation
      reallocated := fun _ _ _ => 0 }
  if t.hasExited then t
  else
    match method with
    | .localTransfer =>
      match ZCF.makeEmptySeatKit zcf with
      | .ok tempSeat zcf => { t.withZcf zcf with phase := .userSeat tempSeat }
      | .error _ zcf => t.withZcf zcf
    | .withdrawToSeat => { t with phase := .withdrawals }

end Transfer

inductive TransferEvent (β κ : Type) where
  /-- the contract calls its facet -/
  | call (call : ZCF.Call β κ)
  | receive (message : ZCFMessage β κ)
  /-- an answer about the `i`-th leg -/
  | settle (i : Nat) (fulfilled : Bool)
  /-- Zoe takes no such offer -/
  | refuseOffer
  /-- the payments are in escrow, and Zoe tells ZCF of the temporary seat -/
  | handleOffer (seatHandle : SeatHandle)
  /-- the method goes on -/
  | resume

namespace Transfer

variable (lib : StoreLib κ) (t : Transfer β κ σ)

def handleOffer (seatHandle : SeatHandle) : Transfer β κ σ :=
  match ZCF.makeZCFSeat
    { proposal := { give := t.amounts, want := ∅ }
      initialAllocation := t.amounts
      seatHandle } t.zcf with
  | .ok tempSeat zcf => { t.withZcf zcf with phase := .offerResult tempSeat }
  | .error _ zcf => { t.withZcf zcf with phase := .rejected }

def resume : Option (Transfer β κ σ) :=
  match t.phase with
  | .userSeat tempSeat =>
    match releaseFromSeat lib t.seat tempSeat t.amounts t.zcf with
    | .ok _ zcf => some ((t.withZcf zcf).moveAll .neither .payouts)
    | .error _ zcf => some { t.withZcf zcf with phase := .rejected }
  | .offerResult tempSeat =>
    match reallocateAfterDeposit lib t.seat tempSeat t.amounts t.zcf with
    | .ok _ zcf => some ((t.withZcf zcf).moveAll .seat t.afterDeposit)
    | .error _ zcf =>
      -- the temporary seat fails, and its payout is nobody's
      some { t.withZcf (finalState (ZCF.fail tempSeat) zcf) with phase := .rejected }
  | _ => if t.settled then t.proceed else none

def step (localAccount : LocalAccount β κ σ) : TransferEvent β κ → Option (Transfer β κ σ)
  | .call call => some (t.others (finalState (call.run lib) t.zcf))
  | .receive message => some (t.others (finalState (ZCF.receive lib message) t.zcf))
  | .settle i fulfilled => t.settle localAccount i fulfilled
  | .refuseOffer => if t.phase = .offer then some { t with phase := .rejected } else none
  | .handleOffer seatHandle =>
    if t.phase = .offer ∧ t.settled then some (t.handleOffer seatHandle) else none
  | .resume => t.resume lib

end Transfer

/-- A call of one of the methods with a seat that ZCF has made. -/
def transferSystem (lib : StoreLib κ) (localAccount : LocalAccount β κ σ) :
    TransitionSystem (Transfer β κ σ) (TransferEvent β κ) where
  init t := ∃ method seat amounts zcf account payout, zcf.Handled ∧ seat < zcf.nextZCFSeat ∧
    t = .start method seat amounts zcf account payout
  step t := t.step lib localAccount

end AgoricSdk.Orchestration
