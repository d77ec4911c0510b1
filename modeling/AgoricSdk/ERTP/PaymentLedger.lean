import AgoricSdk.ERTP.AmountMath
import AgoricSdk.Lib.Program
import AgoricSdk.Lib.Table
import AgoricSdk.Lib.Transition

/-!
The payment ledger of one issuer: the stores of live payments and of their
recovery sets, the states of the purses, and the methods of the mint, the
issuer and the purses that move assets. A method that throws keeps the writes
it made before, as in the source. The events record what was minted, credited
and burned; no method reads them.
-/

namespace AgoricSdk.ERTP

open StateProgram

variable {β κ : Type} [DecidableEq β] [DecidableEq κ]

/-- A remotable object: a payment made by this ledger, or any other object. -/
inductive Remotable where
  | payment (n : Nat)
  | foreign (n : Nat)
  deriving DecidableEq

abbrev PurseID := Nat

/-- An argument as it arrives at an interface guard. -/
inductive Specimen (β κ : Type) where
  | amount (a : Amount β κ)
  | remotable (r : Remotable)
  | promise
  | other

/-- An optional argument that should be an amount pattern. A pattern is given
by the amounts it matches. -/
inductive PatternArg (β κ : Type) where
  | absent
  | pattern (matching : Amount β κ → Bool)
  | other

inductive RecoverySetsOption where
  | hasRecoverySets
  | noRecoverySets
  deriving DecidableEq

inductive LedgerFault where
  | interfaceGuard
  | stateShape
  | amountMath
  | mustMatch
  | notLivePayment (payment : Remotable)
  | alreadyRegistered
  | notFound
  | recoverySetMustBeEmpty
  | withdrawalFailed
  | assertionFailed
  | remainingUnrecoveredPayments
  | shutdownFailed

/-- What was prepared for one issuer. -/
structure Issuer (β κ : Type) where
  lib : StoreLib κ
  brand : β
  assetKind : AssetKind
  elementShape : Option (κ → Bool)
  recoverySetsState : RecoverySetsOption
  /-- absent, or whether the function itself throws -/
  optShutdownWithFailure : Option Bool
  /-- Fungible assets cannot have an elementShape. -/
  nat_elementShape : assetKind = .nat → elementShape = none

/-- The state of a purse and its deposit facet. -/
structure PurseState (β κ : Type) where
  currentBalance : Amount β κ
  recoverySet : List Remotable

/-- A move of assets. -/
inductive AssetEvent (β κ : Type) where
  | minted (amount : Amount β κ)
  | credited (payment : Remotable) (purse : PurseID)
  | burned (payment : Remotable) (amount : Amount β κ)

structure Ledger (β κ : Type) where
  paymentLedger : Table Remotable (Amount β κ)
  /-- A recovery set is known by the purse that it belongs to. -/
  paymentRecoverySets : Table Remotable PurseID
  purses : Table PurseID (PurseState β κ)
  nextPayment : Nat
  nextPurse : PurseID
  mintRecoveryPurse : PurseID
  /-- `optShutdownWithFailure` has been called. -/
  shutdown : Bool
  events : List (AssetEvent β κ)

abbrev LedgerM (β κ : Type) := EStateM LedgerFault (Ledger β κ)

namespace Issuer

variable (issuer : Issuer β κ)

/-! ## Shapes -/

def valueShape (value : Value κ) : Bool :=
  match issuer.assetKind, issuer.elementShape, value with
  | .nat, _, .bigint n => issuer.lib.matchesNat n
  | .set, none, .copyArray l => issuer.lib.matchesArrayOf issuer.lib.isKey l
  | .set, some elementShape, .copyArray l =>
      issuer.lib.matchesArrayOf (fun k => issuer.lib.isKey k && elementShape k) l
  | .copySet, none, .copySet l => issuer.lib.matchesSet l
  | .copySet, some elementShape, .copySet l => issuer.lib.matchesSetOf elementShape l
  | .copyBag, none, .copyBag es => issuer.lib.matchesBag es
  | .copyBag, some elementShape, .copyBag es => issuer.lib.matchesBagOf elementShape es
  | _, _, _ => false

/-- `amountShapeFromElementShape`: whether an amount matches it. -/
def amountShape (amount : Amount β κ) : Bool :=
  amount.brand = issuer.brand && issuer.valueShape amount.value

/-- An argument whose guard is the amount shape. -/
def amountArg : Specimen β κ → LedgerM β κ (Amount β κ)
  | .amount a => if issuer.amountShape a then return a else throw .interfaceGuard
  | _ => throw .interfaceGuard

/-- A result whose guard is the amount shape. -/
def returnsAmount (amount : Amount β κ) : LedgerM β κ (Amount β κ) :=
  if issuer.amountShape amount then return amount else throw .interfaceGuard

def keyEQ (left right : Amount β κ) : Bool :=
  left.brand = right.brand && issuer.lib.keyEQ left.value right.value

end Issuer

/-- An argument whose guard is `PaymentShape`. -/
def paymentArg : Specimen β κ → LedgerM β κ Remotable
  | .remotable r => return r
  | _ => throw .interfaceGuard

/-- An optional argument whose guard is `AmountPatternShape`. -/
def patternArg : PatternArg β κ → LedgerM β κ (Option (Amount β κ → Bool))
  | .absent => return none
  | .pattern matching => return some matching
  | .other => throw .interfaceGuard

def orThrow {α : Type} (e : LedgerFault) : Option α → LedgerM β κ α
  | some a => return a
  | none => throw e

def noteEvent (event : AssetEvent β κ) : LedgerM β κ Unit :=
  modify fun s => { s with events := s.events ++ [event] }

/-! ## Purse states -/

def getPurse (purse : PurseID) : LedgerM β κ (PurseState β κ) := do
  orThrow .notFound ((← get).purses.lookup purse)

def setPurse (purse : PurseID) (state : PurseState β κ) : LedgerM β κ Unit :=
  modify fun s => { s with purses := s.purses.insert purse state }

/-- `recoverySet.add(payment)` -/
def addToRecoverySet (purse : PurseID) (payment : Remotable) : LedgerM β κ Unit := do
  let state ← getPurse purse
  if payment ∈ state.recoverySet then return ()
  setPurse purse { state with recoverySet := state.recoverySet ++ [payment] }

/-- `recoverySet.delete(payment)` -/
def deleteFromRecoverySet (purse : PurseID) (payment : Remotable) : LedgerM β κ Unit := do
  let state ← getPurse purse
  if payment ∈ state.recoverySet then
    setPurse purse { state with recoverySet := state.recoverySet.erase payment }
  else throw .notFound

section Stores

variable (issuer : Issuer β κ)

/-- `state.currentBalance = amount`, checked against the state shape. -/
def setCurrentBalance (purse : PurseID) (amount : Amount β κ) : LedgerM β κ Unit := do
  if issuer.amountShape amount then
    let state ← getPurse purse
    setPurse purse { state with currentBalance := amount }
  else throw .stateShape

/-- `getAmount` of the purse's amount store. -/
def getAmount (purse : PurseID) : LedgerM β κ (Amount β κ) := do
  return (← getPurse purse).currentBalance

def increment (purse : PurseID) (delta : Amount β κ) : LedgerM β κ Unit := do
  let sum ← orThrow .amountMath (AmountMath.add issuer.lib (← getAmount purse) delta none)
  setCurrentBalance issuer purse sum

def decrement (purse : PurseID) (delta : Amount β κ) : LedgerM β κ Bool := do
  if ← orThrow .amountMath (AmountMath.isGTE issuer.lib (← getAmount purse) delta none) then
    let difference ← orThrow .amountMath
      (AmountMath.subtract issuer.lib (← getAmount purse) delta none)
    setCurrentBalance issuer purse difference
    return true
  return false

end Stores

/-! ## The ledger -/

def makePayment : LedgerM β κ Remotable := do
  let n := (← get).nextPayment
  modify fun s => { s with nextPayment := n + 1 }
  return .payment n

section Methods

variable (issuer : Issuer β κ)

def shutdownLedgerWithFailure {α : Type} (reason : LedgerFault) : LedgerM β κ α := do
  match issuer.optShutdownWithFailure with
  | none => throw reason
  | some throwing =>
      modify fun s => { s with shutdown := true }
      if throwing then throw .shutdownFailed
      throw reason

/-- `try { … } catch (err) { shutdownLedgerWithFailure(err); throw err; }` -/
def orShutdown (m : LedgerM β κ Unit) : LedgerM β κ Unit := do
  match ← attempt m with
  | .ok _ => return ()
  | .error err =>
      shutdownLedgerWithFailure issuer (α := Unit) err
      throw err

/-- `paymentLedger.init(payment, amount)` -/
def paymentLedgerInit (payment : Remotable) (amount : Amount β κ) : LedgerM β κ Unit := do
  if (← get).paymentLedger.has payment then throw .alreadyRegistered
  if issuer.amountShape amount then
    modify fun s => { s with paymentLedger := s.paymentLedger.insert payment amount }
  else throw .mustMatch

def initPayment (payment : Remotable) (amount : Amount β κ) (optRecoverySet : Option PurseID) :
    LedgerM β κ Unit := do
  if issuer.recoverySetsState = .noRecoverySets ∧ optRecoverySet.isSome then
    throw .recoverySetMustBeEmpty
  if let some recoverySet := optRecoverySet then
    let empty ← orThrow .amountMath (AmountMath.isEmpty issuer.lib amount none)
    if ¬ empty then
      addToRecoverySet recoverySet payment
      if (← get).paymentRecoverySets.has payment then throw .alreadyRegistered
      modify fun s =>
        { s with paymentRecoverySets := s.paymentRecoverySets.insert payment recoverySet }
  paymentLedgerInit issuer payment amount

def deletePayment (payment : Remotable) : LedgerM β κ Unit := do
  if ¬ (← get).paymentLedger.has payment then throw .notFound
  modify fun s => { s with paymentLedger := s.paymentLedger.erase payment }
  if let some recoverySet := (← get).paymentRecoverySets.lookup payment then
    modify fun s => { s with paymentRecoverySets := s.paymentRecoverySets.erase payment }
    deleteFromRecoverySet recoverySet payment

def assertAmountConsistent (paymentBalance : Amount β κ)
    (optAmountShape : Option (Amount β κ → Bool)) : LedgerM β κ Unit :=
  match optAmountShape with
  | some matching => if matching paymentBalance then return () else throw .mustMatch
  | none => return ()

/-- `assertLivePayment(payment)`, then `paymentLedger.get(payment)` -/
def getLivePayment (payment : Remotable) : LedgerM β κ (Amount β κ) := do
  orThrow (.notLivePayment payment) ((← get).paymentLedger.lookup payment)

def depositInternal (balanceStore : PurseID) (srcPayment : Remotable)
    (optAmountShape : Option (Amount β κ → Bool)) : LedgerM β κ (Amount β κ) := do
  let srcPaymentBalance ← getLivePayment srcPayment
  assertAmountConsistent srcPaymentBalance optAmountShape
  orShutdown issuer do
    deletePayment srcPayment
    increment issuer balanceStore srcPaymentBalance
    noteEvent (.credited srcPayment balanceStore)
  return srcPaymentBalance

def withdrawInternal (balanceStore : PurseID) (amount : Amount β κ)
    (recoverySet : Option PurseID) : LedgerM β κ Remotable := do
  let amount ← orThrow .amountMath (AmountMath.coerce issuer.lib issuer.brand amount)
  let payment ← makePayment
  if ¬ (← decrement issuer balanceStore amount) then throw .withdrawalFailed
  orShutdown issuer (initPayment issuer payment amount recoverySet)
  return payment

def maybeRecoverySet (purse : PurseID) : LedgerM β κ (Option PurseID) := do
  let state ← getPurse purse
  match issuer.recoverySetsState with
  | .hasRecoverySets => return some purse
  | .noRecoverySets =>
      if state.recoverySet.length = 0 then return none else throw .recoverySetMustBeEmpty

/-! ## The purse -/

def deposit (purse : PurseID) (srcPayment : Specimen β κ) (optAmountShape : PatternArg β κ) :
    LedgerM β κ (Amount β κ) := do
  let srcPayment ← paymentArg srcPayment
  let optAmountShape ← patternArg optAmountShape
  let srcPaymentBalance ← depositInternal issuer purse srcPayment optAmountShape
  issuer.returnsAmount srcPaymentBalance

def withdraw (purse : PurseID) (amount : Specimen β κ) : LedgerM β κ Remotable := do
  let amount ← issuer.amountArg amount
  let optRecoverySet ← maybeRecoverySet issuer purse
  withdrawInternal issuer purse amount optRecoverySet

def getCurrentAmount (purse : PurseID) : LedgerM β κ (Amount β κ) := do
  issuer.returnsAmount (← getAmount purse)

/-- One turn of the loop of `recoverAll` for each payment. -/
def recoverPayments (purse : PurseID) : List Remotable → Amount β κ → LedgerM β κ (Amount β κ)
  | [], amount => return amount
  | payment :: payments, amount => do
      let delta ← deposit issuer purse (.remotable payment) .absent
      let amount ← orThrow .amountMath (AmountMath.add issuer.lib amount delta (some issuer.brand))
      recoverPayments purse payments amount

def recoverAll (purse : PurseID) : LedgerM β κ (Amount β κ) := do
  let amount := AmountMath.makeEmpty issuer.lib issuer.brand issuer.assetKind
  match ← maybeRecoverySet issuer purse with
  | none => issuer.returnsAmount amount
  | some recoverySet => do
      let keys := (← getPurse recoverySet).recoverySet
      let amount ← recoverPayments issuer purse keys amount
      if (← getPurse recoverySet).recoverySet.length ≠ 0 then throw .remainingUnrecoveredPayments
      issuer.returnsAmount amount

/-- The `receive` of the deposit facet. -/
def receive (purse : PurseID) (srcPayment : Specimen β κ) (optAmountShape : PatternArg β κ) :
    LedgerM β κ (Amount β κ) :=
  deposit issuer purse srcPayment optAmountShape

def makeEmptyPurse : LedgerM β κ PurseID := do
  let currentBalance := AmountMath.makeEmpty issuer.lib issuer.brand issuer.assetKind
  if issuer.amountShape currentBalance then
    let purse := (← get).nextPurse
    modify fun s => { s with
      nextPurse := purse + 1
      purses := s.purses.insert purse { currentBalance, recoverySet := [] } }
    return purse
  else throw .stateShape

/-! ## The issuer and the mint -/

def burn (payment : Specimen β κ) (optAmountShape : PatternArg β κ) :
    LedgerM β κ (Amount β κ) := do
  let payment ← paymentArg payment
  let optAmountShape ← patternArg optAmountShape
  let paymentBalance ← getLivePayment payment
  assertAmountConsistent paymentBalance optAmountShape
  orShutdown issuer do
    deletePayment payment
    noteEvent (.burned payment paymentBalance)
  issuer.returnsAmount paymentBalance

/-- What `mintPayment` issues for its argument, if anything. -/
def issued : Specimen β κ → Option (Amount β κ)
  | .amount a =>
      if issuer.amountShape a then
        (AmountMath.coerce issuer.lib issuer.brand a).filter issuer.amountShape
      else none
  | _ => none

def mintPayment (newAmount : Specimen β κ) : LedgerM β κ Remotable := do
  let newAmount ← issuer.amountArg newAmount
  let newAmount ← orThrow .amountMath (AmountMath.coerce issuer.lib issuer.brand newAmount)
  if ¬ issuer.amountShape newAmount then throw .mustMatch
  let rawPayment ← makePayment
  noteEvent (.minted newAmount)
  initPayment issuer rawPayment newAmount none
  let mintRecoveryPurse := (← get).mintRecoveryPurse
  let mintRecoveryPurseBefore ← getCurrentAmount issuer mintRecoveryPurse
  let _ ← deposit issuer mintRecoveryPurse (.remotable rawPayment)
    (.pattern (issuer.keyEQ · newAmount))
  let payment ← withdraw issuer mintRecoveryPurse (.amount newAmount)
  let mintRecoveryPurseAfter ← getCurrentAmount issuer mintRecoveryPurse
  if issuer.keyEQ mintRecoveryPurseBefore mintRecoveryPurseAfter then return payment
  throw .assertionFailed

end Methods

/-! ## Runs -/

inductive LedgerOp (β κ : Type) where
  | mintPayment (newAmount : Specimen β κ)
  | deposit (purse : PurseID) (srcPayment : Specimen β κ) (optAmountShape : PatternArg β κ)
  | receive (purse : PurseID) (srcPayment : Specimen β κ) (optAmountShape : PatternArg β κ)
  | withdraw (purse : PurseID) (amount : Specimen β κ)
  | burn (payment : Specimen β κ) (optAmountShape : PatternArg β κ)
  | recoverAll (purse : PurseID)
  | makeEmptyPurse

/-- The purse that a method is called on. -/
def LedgerOp.purse : LedgerOp β κ → Option PurseID
  | .deposit purse _ _ | .receive purse _ _ | .withdraw purse _ | .recoverAll purse => some purse
  | _ => none

variable (issuer : Issuer β κ)

def LedgerOp.run : LedgerOp β κ → LedgerM β κ Unit
  | .mintPayment newAmount => (fun _ => ()) <$> ERTP.mintPayment issuer newAmount
  | .deposit purse srcPayment optAmountShape =>
      (fun _ => ()) <$> ERTP.deposit issuer purse srcPayment optAmountShape
  | .receive purse srcPayment optAmountShape =>
      (fun _ => ()) <$> ERTP.receive issuer purse srcPayment optAmountShape
  | .withdraw purse amount => (fun _ => ()) <$> ERTP.withdraw issuer purse amount
  | .burn payment optAmountShape => (fun _ => ()) <$> ERTP.burn issuer payment optAmountShape
  | .recoverAll purse => (fun _ => ()) <$> ERTP.recoverAll issuer purse
  | .makeEmptyPurse => (fun _ => ()) <$> ERTP.makeEmptyPurse issuer

/-- The stores before the mint recovery purse is made. -/
def emptyLedger : Ledger β κ where
  paymentLedger := ∅
  paymentRecoverySets := ∅
  purses := ∅
  nextPayment := 0
  nextPurse := 0
  mintRecoveryPurse := 0
  shutdown := false
  events := []

/-- The ledger as it is prepared, with its mint recovery purse. -/
def preparePaymentLedger : Ledger β κ :=
  finalState (makeEmptyPurse issuer) emptyLedger

/-- Anyone calls any method, on any purse that was made. -/
def ledgerSystem : TransitionSystem (Ledger β κ) (LedgerOp β κ) where
  init s := s = preparePaymentLedger issuer
  step s op :=
    if op.purse.all s.purses.has then some (finalState (op.run issuer) s) else none

end AgoricSdk.ERTP
