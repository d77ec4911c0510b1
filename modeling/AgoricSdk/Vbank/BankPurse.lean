import AgoricSdk.Lib.Record
import AgoricSdk.Lib.Transition
import AgoricSdk.SwingSet.Slots

/-!
The balances of bank purses. The bank module reports balances in messages with a nonce, which
arrive over the bridge or as the answers to the calls that give and grab coins, in any order.
The updater for a denomination and an address publishes what the newest report says. It
remembers the nonce before it has read the amount, so a report that it cannot read keeps
later ones out.
-/

namespace AgoricSdk.Vbank

open SwingSet (JSString trimString readNumeral decimal)

/-- Numbers that are no integers cannot be converted to a `BigInt`. -/
inductive JSNumber where
  | integer (n : Int)
  | nonInteger
  deriving DecidableEq

inductive BridgeBigInt where
  | number (x : JSNumber)
  | string (s : JSString)
  deriving DecidableEq

/-- What a field of an entry may hold. -/
inductive BridgeValue where
  | undefined
  | null
  | boolean (b : Bool)
  | number (x : JSNumber)
  | string (s : JSString)
  | object
  deriving DecidableEq

/-- `BigInt(s)`, `none` where it throws. -/
def stringToBigInt (s : JSString) : Option Int :=
  match trimString s with
  | [] => some 0
  | '0' :: 'x' :: ds | '0' :: 'X' :: ds => (readNumeral 16 ds).map Int.ofNat
  | '0' :: 'o' :: ds | '0' :: 'O' :: ds => (readNumeral 8 ds).map Int.ofNat
  | '0' :: 'b' :: ds | '0' :: 'B' :: ds => (readNumeral 2 ds).map Int.ofNat
  | '+' :: ds => (readNumeral 10 ds).map Int.ofNat
  | '-' :: ds => (readNumeral 10 ds).map fun n => -Int.ofNat n
  | ds => (readNumeral 10 ds).map Int.ofNat

def BridgeBigInt.toBigInt : BridgeBigInt → Option Int
  | .number (.integer n) => some n
  | .number .nonInteger => none
  | .string s => stringToBigInt s

/-- The value of an amount of a fungible asset. -/
def amountMake (value : Int) : Option Nat := if value < 0 then none else some value.toNat

def balanceAmount (value : JSString) : Option Nat := (stringToBigInt value).bind amountMake

inductive UpdateFault where
  | mustMatch
  | notBigInt
  | notAmount
  deriving DecidableEq

structure BalanceUpdater where
  lastBalanceUpdate : Int := -1
  /-- What the publisher has published, the latest last. -/
  published : List Nat := []
  deriving DecidableEq

namespace BalanceUpdater

/-- The balance that a purse shows. -/
def balance (u : BalanceUpdater) : Option Nat := u.published.getLast?

def publishBalance (value : JSString) (u : BalanceUpdater) :
    Except UpdateFault Unit × BalanceUpdater :=
  match balanceAmount value with
  | none => (.error .notAmount, u)
  | some amt => (.ok (), { u with published := u.published ++ [amt] })

def update (value : BridgeValue) (nonce : Option BridgeBigInt) (u : BalanceUpdater) :
    Except UpdateFault Unit × BalanceUpdater :=
  match value with
  | .string value =>
    match nonce with
    | none => u.publishBalance value
    | some nonce =>
      match nonce.toBigInt with
      | none => (.error .notBigInt, u)
      | some thisBalanceUpdate =>
        if thisBalanceUpdate ≤ u.lastBalanceUpdate then (.ok (), u)
        else publishBalance value { u with lastBalanceUpdate := thisBalanceUpdate }
  | _ => (.error .mustMatch, u)

end BalanceUpdater

/-- The updaters by denomination and address. -/
abbrev Updaters := Record JSString (Record JSString BalanceUpdater)

namespace Updaters

def find (s : Updaters) (denom address : JSString) : Option BalanceUpdater :=
  (s.get denom).bind fun addressToUpdater => addressToUpdater.get address

def put (s : Updaters) (denom address : JSString) (u : BalanceUpdater) : Updaters :=
  match s.get denom with
  | none => s
  | some addressToUpdater => s.set denom (addressToUpdater.set address u)

end Updaters

structure UpdateEntry where
  address : BridgeValue
  denom : BridgeValue
  amount : BridgeValue
  deriving DecidableEq

/-- An entry that is `none` is `null` or `undefined`. -/
inductive BankMessage where
  | balanceUpdate (updated : List (Option UpdateEntry)) (nonce : BridgeBigInt)
  | other

inductive BridgeFault where
  | cannotDestructure
  | unrecognizedRequest
  | downcallFailed
  deriving DecidableEq

/-- What happens to the updater that an entry names; a failure is logged and goes no further. -/
def updateEntry (nonce : BridgeBigInt) (s : Updaters) (entry : UpdateEntry) : Updaters :=
  match entry.denom, entry.address with
  | .string denom, .string address =>
    match s.find denom address with
    | none => s
    | some updater => s.put denom address (updater.update entry.amount (some nonce)).2
  | _, _ => s

/-- Taking the fields of an entry that has none is not inside a `try` block. -/
def updateEntries (nonce : BridgeBigInt) : List (Option UpdateEntry) → Updaters →
    Except BridgeFault Unit × Updaters
  | [], s => (.ok (), s)
  | none :: _, s => (.error .cannotDestructure, s)
  | some entry :: updated, s => updateEntries nonce updated (updateEntry nonce s entry)

def fromBridge (s : Updaters) : BankMessage → Except BridgeFault Unit × Updaters
  | .balanceUpdate updated nonce => updateEntries nonce updated s
  | .other => (.error .unrecognizedRequest, s)

inductive BridgeRequest where
  | VBANK_GIVE (recipient denom amount : JSString)
  | VBANK_GRAB (sender denom amount : JSString)
  deriving DecidableEq

abbrev ToBridge := BridgeRequest → Except BridgeFault BankMessage

structure BankPurseController where
  denom : JSString
  address : JSString

namespace BankPurseController

def handleAnswer (answer : Except BridgeFault BankMessage) (s : Updaters) :
    Except BridgeFault Unit × Updaters :=
  match answer with
  | .error e => (.error e, s)
  | .ok update => fromBridge s update

def pushAmount (vpc : BankPurseController) (toBridge : ToBridge) (amt : Nat) (s : Updaters) :
    Except BridgeFault Unit × Updaters :=
  handleAnswer (toBridge (.VBANK_GIVE vpc.address vpc.denom (decimal amt))) s

def pullAmount (vpc : BankPurseController) (toBridge : ToBridge) (amt : Nat) (s : Updaters) :
    Except BridgeFault Unit × Updaters :=
  handleAnswer (toBridge (.VBANK_GRAB vpc.address vpc.denom (decimal amt))) s

end BankPurseController

/-- The ways in which a message reaches the updaters. -/
inductive Arrival where
  | bridge (message : BankMessage)
  | push (vpc : BankPurseController) (toBridge : ToBridge) (amt : Nat)
  | pull (vpc : BankPurseController) (toBridge : ToBridge) (amt : Nat)

def receive (s : Updaters) : Arrival → Except BridgeFault Unit × Updaters
  | .bridge message => fromBridge s message
  | .push vpc toBridge amt => vpc.pushAmount toBridge amt s
  | .pull vpc toBridge amt => vpc.pullAmount toBridge amt s

/-- The message that arrives, if the bridge answered. -/
def Arrival.message : Arrival → Option BankMessage
  | .bridge message => some message
  | .push vpc toBridge amt =>
    (toBridge (.VBANK_GIVE vpc.address vpc.denom (decimal amt))).toOption
  | .pull vpc toBridge amt =>
    (toBridge (.VBANK_GRAB vpc.address vpc.denom (decimal amt))).toOption

/-- The entries of the message that arrives and its nonce. -/
def Arrival.updated (arrival : Arrival) : List (BridgeBigInt × Option UpdateEntry) :=
  match arrival.message with
  | some (.balanceUpdate updated nonce) => updated.map fun entry => (nonce, entry)
  | _ => []

def bankPurses : TransitionSystem Updaters Arrival where
  init s := ∀ denom address u, s.find denom address = some u → u.lastBalanceUpdate = -1
  step s arrival := some (receive s arrival).2

end AgoricSdk.Vbank
