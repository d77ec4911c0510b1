import AgoricSdk.Cosmos.Coins
import AgoricSdk.Lib.Program
import AgoricSdk.Lib.Rounding
import AgoricSdk.Lib.Table
import Mathlib.Algebra.Order.Floor.Semifield

/-!
Fees are reckoned in beans and paid in coins. `chargeBeans` keeps what an account owes
below the minimum debit and takes the coins for the rest from its balance.

The coin arithmetic and the bank are the Cosmos SDK's. They are parameters here, with
what the keeper relies on as laws.
-/

namespace AgoricSdk.Fees

open StateProgram Cosmos

structure DecCoin where
  denom : String
  amount : ℚ
  deriving DecidableEq

def decAmountOf (coins : List DecCoin) (denom : String) : ℚ :=
  ((coins.find? (·.denom = denom)).map DecCoin.amount).getD 0

/-- A price as it is stored, which may list a denom again with a zero amount. -/
def priceOf (price : List Coin) (denom : String) : Nat :=
  ((price.filter (·.denom = denom)).map Coin.amount).sum

/-- A quantity kept to 18 decimals. -/
structure Keeps (exact kept : ℚ) : Prop where
  near : |kept - exact| ≤ 1 / 10 ^ 18
  exactly : ∀ n : Nat, exact = n / 10 ^ 18 → kept = exact

theorem Keeps.natCast {n : Nat} {kept : ℚ} (h : Keeps n kept) : kept = n := by
  apply h.exactly (n * 10 ^ 18)
  push_cast
  exact (mul_div_cancel_right₀ _ (by norm_num)).symm

/-- `none` stands for a panic. -/
structure CoinMath where
  newDecCoinsFromCoins : List Coin → Option (List DecCoin)
  mulDec : List DecCoin → ℚ → Option (List DecCoin)
  quoDec : List DecCoin → ℚ → Option (List DecCoin)
  truncateDecimal : List DecCoin → List Coin

def DistinctDec (coins : List DecCoin) : Prop := (coins.map DecCoin.denom).Nodup

structure CoinMath.Lawful (math : CoinMath) : Prop where
  newDecCoins {coins dec} (h : math.newDecCoinsFromCoins coins = some dec) :
    DistinctDec dec ∧ ∀ denom, decAmountOf dec denom = priceOf coins denom
  mulDec {dec out} {q : ℚ} (hdec : DistinctDec dec) (hq : 0 ≤ q) (h : math.mulDec dec q = some out) :
    DistinctDec out ∧ ∀ denom, 0 ≤ decAmountOf dec denom →
      Keeps (decAmountOf dec denom * q) (decAmountOf out denom)
  quoDec {dec out} {q : ℚ} (hdec : DistinctDec dec) (hq : 0 ≤ q) (h : math.quoDec dec q = some out) :
    q ≠ 0 ∧ DistinctDec out ∧ ∀ denom, 0 ≤ decAmountOf dec denom →
      Keeps (decAmountOf dec denom / q) (decAmountOf out denom)
  truncate {dec} (hdec : DistinctDec dec) (denom : String) :
    amountOf (math.truncateDecimal dec) denom = ⌊decAmountOf dec denom⌋₊

/-- A refused send returns the error with the balances as it leaves them. -/
structure BankKeeper (B Err : Type) where
  balance : B → String → String → Nat
  moduleAddress : String → String
  sendCoinsFromAccountToModule : B → String → String → List Coin → Option Err × B

structure BankKeeper.Lawful {B Err : Type} (bank : BankKeeper B Err) : Prop where
  sent {b b' : B} {addr moduleName : String} {coins : List Coin}
    (h : bank.sendCoinsFromAccountToModule b addr moduleName coins = (none, b'))
    (account denom : String) :
    bank.balance b' account denom + (if account = addr then amountOf coins denom else 0) =
      bank.balance b account denom +
        (if account = bank.moduleAddress moduleName then amountOf coins denom else 0)

structure Keeper (B Err : Type) where
  bank : BankKeeper B Err
  math : CoinMath
  feeCollectorName : String

/-- `beansOwing` holds what is recorded under the address's storage path. -/
structure State (B : Type) where
  beansOwing : Table String Nat := ∅
  bank : B

inductive ChargeFault (Err : Type) where
  | panic
  | refused (err : Err)
  deriving DecidableEq

abbrev ChargeM (B Err : Type) := EStateM (ChargeFault Err) (State B)

variable {B Err : Type}

def orPanic {α : Type} : Option α → ChargeM B Err α
  | some a => pure a
  | none => throw .panic

/-- An unsigned integer of 256 bits. -/
def uintAdd (a b : Nat) : Option Nat :=
  if a + b < 2 ^ 256 then some (a + b) else none

def uintMod (a b : Nat) : Option Nat :=
  if b = 0 then none else some (a % b)

def getBeansOwing (s : State B) (addr : String) : Nat :=
  (s.beansOwing.lookup addr).getD 0

def setBeansOwing (addr : String) (beans : Nat) : ChargeM B Err Unit :=
  modify fun s => { s with beansOwing := s.beansOwing.insert addr beans }

/-- The beans to debit, in coins of each denom of the price. -/
def feeDecCoins (math : CoinMath) (feeUnitPrice : List Coin) (beansToDebit beansPerFeeUnit : Nat) :
    Option (List DecCoin) := do
  let price ← math.newDecCoinsFromCoins feeUnitPrice
  let debit ← math.mulDec price beansToDebit
  math.quoDec debit beansPerFeeUnit

def sendCoins (k : Keeper B Err) (addr : String) (feeCoins : List Coin) : ChargeM B Err Unit := do
  let s ← get
  match k.bank.sendCoinsFromAccountToModule s.bank addr k.feeCollectorName feeCoins with
  | (none, bank) => set { s with bank }
  | (some err, bank) =>
    set { s with bank }
    throw (.refused err)

def sendFee (k : Keeper B Err) (addr : String) (feeCoins : List Coin) : ChargeM B Err Unit :=
  if isZero feeCoins then pure () else sendCoins k addr feeCoins

/-- A beans parameter that is missing has no value to compute with. -/
def chargeBeans (k : Keeper B Err) (feeUnitPrice : List Coin) (beansPerUnit : Table String Nat)
    (addr : String) (beans : Nat) : ChargeM B Err Unit := do
  let wasOwing := getBeansOwing (← get) addr
  let nowOwing ← orPanic (uintAdd wasOwing beans)
  let beansPerMinFeeDebit ← orPanic (beansPerUnit.lookup "minFeeDebit")
  let remainderOwing ← orPanic (uintMod nowOwing beansPerMinFeeDebit)
  let beansToDebit := nowOwing - remainderOwing
  let beansPerFeeUnit ← orPanic (beansPerUnit.lookup "feeUnit")
  let feeDecCoins ← orPanic (feeDecCoins k.math feeUnitPrice beansToDebit beansPerFeeUnit)
  sendFee k addr (k.math.truncateDecimal feeDecCoins)
  setBeansOwing addr remainderOwing

structure Call where
  feeUnitPrice : List Coin
  beansPerUnit : Table String Nat
  addr : String
  beans : Nat

def Call.run (k : Keeper B Err) (call : Call) : ChargeM B Err Unit :=
  chargeBeans k call.feeUnitPrice call.beansPerUnit call.addr call.beans

/-- What a successful call settles, reckoned from the state before it. -/
structure Receipt where
  call : Call
  minFeeDebit : Nat
  feeUnit : Nat
  beansDebited : Nat
  coins : List Coin

def receiptOf (k : Keeper B Err) (s : State B) (call : Call) : Receipt :=
  let minFeeDebit := (call.beansPerUnit.lookup "minFeeDebit").getD 0
  let feeUnit := (call.beansPerUnit.lookup "feeUnit").getD 0
  let nowOwing := getBeansOwing s call.addr + call.beans
  let beansDebited := nowOwing - nowOwing % minFeeDebit
  { call, minFeeDebit, feeUnit, beansDebited
    coins := k.math.truncateDecimal
      ((feeDecCoins k.math call.feeUnitPrice beansDebited feeUnit).getD []) }

structure Charged (k : Keeper B Err) (call : Call) (s t : State B) : Prop where
  min_pos : 0 < (receiptOf k s call).minFeeDebit
  owing : t.beansOwing = s.beansOwing.insert call.addr
    ((getBeansOwing s call.addr + call.beans) % (receiptOf k s call).minFeeDebit)
  converted : ∃ dec, feeDecCoins k.math call.feeUnitPrice (receiptOf k s call).beansDebited
      (receiptOf k s call).feeUnit = some dec ∧
    (receiptOf k s call).coins = k.math.truncateDecimal dec
  sent : isZero (receiptOf k s call).coins = true ∧ t.bank = s.bank ∨
    k.bank.sendCoinsFromAccountToModule s.bank call.addr k.feeCollectorName
      (receiptOf k s call).coins = (none, t.bank)

/-- What a failing call leaves comes from the bank, which refused the send. -/
structure Refused (k : Keeper B Err) (call : Call) (s t : State B) : Prop where
  owing : t.beansOwing = s.beansOwing
  bank : t.bank = s.bank ∨ ∃ coins err,
    k.bank.sendCoinsFromAccountToModule s.bank call.addr k.feeCollectorName coins =
      (some err, t.bank)

theorem wp_orPanic {α : Type} {o : Option α} {Q : α → State B → Prop}
    {E : ChargeFault Err → State B → Prop} {s : State B}
    (hsome : ∀ a, o = some a → Q a s) (hnone : E .panic s) : Wp (orPanic o) Q E s := by
  cases o with
  | none => exact hnone
  | some a => exact hsome a rfl

theorem sendFee_spec (k : Keeper B Err) (call : Call) (coins : List Coin) (s : State B) :
    Wp (sendFee k call.addr coins)
      (fun _ t => t.beansOwing = s.beansOwing ∧ (isZero coins = true ∧ t.bank = s.bank ∨
        k.bank.sendCoinsFromAccountToModule s.bank call.addr k.feeCollectorName coins =
          (none, t.bank)))
      (fun _ t => Refused k call s t) s := by
  unfold sendFee sendCoins
  apply wp_ite
  · intro hzero
    exact ⟨rfl, .inl ⟨hzero, rfl⟩⟩
  · intro _
    rw [wp_bind, wp_get]
    rcases hsend : k.bank.sendCoinsFromAccountToModule s.bank call.addr k.feeCollectorName coins
      with ⟨result, bank⟩
    cases result with
    | none => exact ⟨rfl, .inr rfl⟩
    | some err => exact ⟨rfl, .inr ⟨coins, err, hsend⟩⟩

theorem Call.run_spec (k : Keeper B Err) (call : Call) (s : State B) :
    Wp (call.run k) (fun _ t => Charged k call s t) (fun _ t => Refused k call s t) s := by
  have hpanic : Refused k call s s := ⟨rfl, .inl rfl⟩
  unfold Call.run chargeBeans
  rw [wp_bind, wp_get, wp_bind]
  apply wp_orPanic _ hpanic
  intro nowOwing hnow
  rw [uintAdd, Option.ite_none_right_eq_some] at hnow
  obtain ⟨-, ⟨⟩⟩ := hnow
  rw [wp_bind]
  apply wp_orPanic _ hpanic
  intro minFeeDebit hmin
  rw [wp_bind]
  apply wp_orPanic _ hpanic
  intro remainder hremainder
  rw [uintMod, Option.ite_none_left_eq_some] at hremainder
  obtain ⟨hpos, ⟨⟩⟩ := hremainder
  rw [wp_bind]
  apply wp_orPanic _ hpanic
  intro feeUnit hunit
  rw [wp_bind]
  apply wp_orPanic _ hpanic
  intro dec hdec
  have hreceipt : receiptOf k s call = {
      call, minFeeDebit, feeUnit
      beansDebited := getBeansOwing s call.addr + call.beans -
        (getBeansOwing s call.addr + call.beans) % minFeeDebit
      coins := k.math.truncateDecimal dec } := by
    simp only [receiptOf, hmin, hunit, Option.getD_some, hdec]
  rw [wp_bind]
  apply wp_mono (sendFee_spec k call _ s)
  · intro _ t ht
    constructor <;> rw [hreceipt]
    · exact Nat.pos_of_ne_zero hpos
    · exact congrArg (Table.insert · _ _) ht.1
    · exact ⟨dec, hdec, rfl⟩
    · exact ht.2
  · intro _ _ h
    exact h

end AgoricSdk.Fees
