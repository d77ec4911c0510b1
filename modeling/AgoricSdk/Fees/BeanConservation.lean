import AgoricSdk.Fees.SdkMath

/-!
Conservation over any sequence of charges. Beans are conserved exactly: what is debited
and what is still owed add up to what was charged. The coins taken for a debit are its
price cut down to whole coins, and stand for the beans debited where nothing is cut.
-/

namespace AgoricSdk.Fees

open StateProgram Cosmos

variable {B Err : Type}

/-- A call is part of a transaction, whose writes are dropped where it fails. -/
def deliver (k : Keeper B Err) (s : State B) (call : Call) : List Receipt × State B :=
  match call.run k s with
  | .ok _ t => ([receiptOf k s call], t)
  | .error _ _ => ([], s)

def deliverAll (k : Keeper B Err) (s : State B) : List Call → List Receipt × State B
  | [] => ([], s)
  | call :: calls =>
    let (first, t) := deliver k s call
    let (rest, u) := deliverAll k t calls
    (first ++ rest, u)

namespace Receipt

def price (r : Receipt) (denom : String) : Nat := priceOf r.call.feeUnitPrice denom

def exactFee (r : Receipt) (denom : String) : ℚ :=
  r.price denom * r.beansDebited / r.feeUnit

/-- The coins taken, converted back at the price in force. -/
def beansPaid (denom : String) (r : Receipt) : ℚ :=
  amountOf r.coins denom * r.feeUnit / r.price denom

/-- The minimum debit, and with it every debit, comes to whole coins. -/
def WholeCoins (r : Receipt) (denom : String) : Prop :=
  0 < r.price denom ∧ r.feeUnit ∣ r.price denom * r.minFeeDebit

structure Converts (r : Receipt) (denom : String) : Prop where
  at_most : (amountOf r.coins denom : ℚ) ≤ r.exactFee denom + 1 / 10 ^ 18
  at_least : r.exactFee denom < amountOf r.coins denom + 1 + 1 / 10 ^ 18
  exactly : r.feeUnit ∣ r.price denom * r.beansDebited →
    (amountOf r.coins denom : ℚ) = r.exactFee denom

structure Valid (r : Receipt) : Prop where
  feeUnit_pos : 0 < r.feeUnit
  multiple : r.minFeeDebit ∣ r.beansDebited
  converts (denom : String) : r.Converts denom

theorem Valid.beansPaid_eq {r : Receipt} (h : r.Valid) {denom : String}
    (hwhole : r.WholeCoins denom) : r.beansPaid denom = r.beansDebited := by
  obtain ⟨hprice, hdvd⟩ := hwhole
  have hunit : (r.feeUnit : ℚ) ≠ 0 := Nat.cast_ne_zero.mpr h.feeUnit_pos.ne'
  have hprice' : (r.price denom : ℚ) ≠ 0 := Nat.cast_ne_zero.mpr hprice.ne'
  have hcoins := (h.converts denom).exactly (hdvd.trans (mul_dvd_mul_left _ h.multiple))
  rw [beansPaid, hcoins, exactFee, div_mul_cancel₀ _ hunit, mul_div_cancel_left₀ _ hprice']

end Receipt

/-- A total over the receipts of one account. -/
def totalOf {M : Type} [AddMonoid M] (addr : String) (f : Receipt → M) (receipts : List Receipt) :
    M :=
  (receipts.map fun r => if r.call.addr = addr then f r else 0).sum

theorem totalOf_cast {addr : String} {f : Receipt → Nat} {g : Receipt → ℚ}
    {receipts : List Receipt} (h : ∀ r ∈ receipts, r.call.addr = addr → g r = f r) :
    totalOf addr g receipts = (totalOf addr f receipts : Nat) := by
  induction receipts with
  | nil => rfl
  | cons r rs ih =>
    have hhead := h r List.mem_cons_self
    have htail := ih fun r' hr' => h r' (List.mem_cons_of_mem _ hr')
    simp only [totalOf, List.map_cons, List.sum_cons, Nat.cast_add] at htail ⊢
    rw [htail]
    by_cases haddr : r.call.addr = addr
    · rw [if_pos haddr, if_pos haddr, hhead haddr]
    · rw [if_neg haddr, if_neg haddr, Nat.cast_zero]

section OneCall

variable {k : Keeper B Err} {call : Call} {s t : State B}

theorem getBeansOwing_of_owing {u : State B} {addr account : String} {beans : Nat}
    (h : u.beansOwing = s.beansOwing.insert addr beans) :
    getBeansOwing u account = if account = addr then beans else getBeansOwing s account := by
  rw [getBeansOwing, h, Table.lookup_insert]
  split
  · rfl
  · rfl

theorem Charged.owing_lt (h : Charged k call s t) :
    getBeansOwing t call.addr < (receiptOf k s call).minFeeDebit := by
  rw [getBeansOwing_of_owing h.owing, if_pos rfl]
  exact Nat.mod_lt _ h.min_pos

theorem Charged.owing_add (h : Charged k call s t) (addr : String) :
    getBeansOwing t addr + (if call.addr = addr then (receiptOf k s call).beansDebited else 0) =
      getBeansOwing s addr + (if call.addr = addr then call.beans else 0) := by
  rw [getBeansOwing_of_owing h.owing]
  by_cases haddr : call.addr = addr
  · subst haddr
    rw [if_pos rfl, if_pos rfl, if_pos rfl]
    exact Nat.add_sub_cancel' (Nat.mod_le _ _)
  · rw [if_neg haddr, if_neg haddr, if_neg (Ne.symm haddr)]

theorem Charged.balance_add (hbank : k.bank.Lawful) (h : Charged k call s t)
    (addr denom : String) :
    k.bank.balance t.bank addr denom +
        (if call.addr = addr then amountOf (receiptOf k s call).coins denom else 0) =
      k.bank.balance s.bank addr denom +
        (if addr = k.bank.moduleAddress k.feeCollectorName then
          amountOf (receiptOf k s call).coins denom else 0) := by
  rcases h.sent with ⟨hzero, hsame⟩ | hsent
  · rw [hsame, amountOf_of_isZero hzero, ite_self, ite_self]
  · rw [← hbank.sent hsent addr denom]
    simp only [eq_comm]

theorem Charged.converts (hmath : k.math.Lawful) (h : Charged k call s t) :
    0 < (receiptOf k s call).feeUnit ∧ ∀ denom, (receiptOf k s call).Converts denom := by
  generalize hr : receiptOf k s call = r
  have hcall : call = r.call := congrArg Receipt.call hr
  obtain ⟨dec, hdec, hcoins⟩ := h.converted
  rw [hr] at hdec hcoins
  rw [hcall] at hdec
  obtain ⟨price, hprice, hdec⟩ := Option.bind_eq_some_iff.mp hdec
  obtain ⟨debit, hdebit, hdec⟩ := Option.bind_eq_some_iff.mp hdec
  obtain ⟨hpriceDistinct, hpriceAmount⟩ := hmath.newDecCoins hprice
  obtain ⟨hdebitDistinct, hdebitAmount⟩ :=
    hmath.mulDec hpriceDistinct (Nat.cast_nonneg _) hdebit
  obtain ⟨hne, hdecDistinct, hdecAmount⟩ := hmath.quoDec hdebitDistinct (Nat.cast_nonneg _) hdec
  have hpos : 0 < r.feeUnit := Nat.pos_of_ne_zero (Nat.cast_ne_zero.mp hne)
  refine ⟨hpos, fun denom => ?_⟩
  have hdebited : decAmountOf debit denom = (r.price denom * r.beansDebited : Nat) := by
    have hkeeps := hdebitAmount denom
    rw [hpriceAmount denom] at hkeeps
    apply Keeps.natCast
    rw [Nat.cast_mul]
    exact hkeeps (Nat.cast_nonneg _)
  have hkept : Keeps (r.exactFee denom) (decAmountOf dec denom) := by
    have hkeeps := hdecAmount denom
    rw [hdebited, Nat.cast_mul] at hkeeps
    apply hkeeps
    positivity
  have hfloor : amountOf r.coins denom = ⌊decAmountOf dec denom⌋₊ := by
    rw [hcoins, hmath.truncate hdecDistinct]
  have hnear := abs_le.mp hkept.near
  have hfee : 0 ≤ r.exactFee denom := by
    unfold Receipt.exactFee
    positivity
  constructor
  · rw [hfloor]
    rcases le_total 0 (decAmountOf dec denom) with hdec | hdec
    · have hle := Nat.floor_le hdec
      linarith [hnear.2]
    · rw [Nat.floor_of_nonpos hdec, Nat.cast_zero]
      positivity
  · have hlt := Nat.lt_floor_add_one (decAmountOf dec denom)
    rw [← hfloor] at hlt
    linarith [hnear.1]
  · rintro ⟨n, hn⟩
    have hexact : r.exactFee denom = n := by
      have hne : (r.feeUnit : ℚ) ≠ 0 := Nat.cast_ne_zero.mpr hpos.ne'
      rw [Receipt.exactFee, ← Nat.cast_mul, hn, Nat.cast_mul, mul_div_cancel_left₀ _ hne]
    rw [hexact] at hkept ⊢
    rw [hfloor, hkept.natCast, Nat.floor_natCast]

theorem Charged.valid (hmath : k.math.Lawful) (h : Charged k call s t) :
    (receiptOf k s call).Valid where
  feeUnit_pos := (h.converts hmath).1
  multiple := Nat.dvd_sub_mod _
  converts := (h.converts hmath).2

end OneCall

section Runs

variable {k : Keeper B Err}

theorem deliver_cases (s : State B) (call : Call) :
    deliver k s call = ([], s) ∨
      ∃ t, Charged k call s t ∧ deliver k s call = ([receiptOf k s call], t) := by
  unfold deliver
  cases hrun : call.run k s with
  | ok a t =>
    have hspec := call.run_spec k s
    have hcharged := wp_of_ok hspec hrun
    exact .inr ⟨t, hcharged, rfl⟩
  | error e t => exact .inl rfl

theorem deliverAll_induction {P : State B → List Receipt → State B → Prop}
    (hnil : ∀ s, P s [] s)
    (hcharged : ∀ {s t u call rs}, Charged k call s t → P t rs u → P s (receiptOf k s call :: rs) u)
    (s : State B) (calls : List Call) :
    P s (deliverAll k s calls).1 (deliverAll k s calls).2 := by
  induction calls generalizing s with
  | nil => exact hnil s
  | cons call calls ih =>
    unfold deliverAll
    rcases deliver_cases s call with hskip | ⟨t, hcall, hdeliver⟩
    · rw [hskip]
      exact ih s
    · rw [hdeliver]
      exact hcharged hcall (ih t)

theorem deliverAll_owing (s : State B) (calls : List Call) (addr : String) :
    getBeansOwing (deliverAll k s calls).2 addr +
        totalOf addr Receipt.beansDebited (deliverAll k s calls).1 =
      getBeansOwing s addr + totalOf addr (fun r => r.call.beans) (deliverAll k s calls).1 := by
  apply deliverAll_induction (P := fun s rs u =>
    getBeansOwing u addr + totalOf addr Receipt.beansDebited rs =
      getBeansOwing s addr + totalOf addr (fun r => r.call.beans) rs)
  · intro s
    rfl
  · intro s t u call rs hcall ih
    have hone := hcall.owing_add addr
    have hcall : (receiptOf k s call).call = call := rfl
    simp only [totalOf, List.map_cons, List.sum_cons, hcall] at ih ⊢
    omega

theorem deliverAll_balance (hbank : k.bank.Lawful) (s : State B) (calls : List Call)
    (addr denom : String) :
    k.bank.balance (deliverAll k s calls).2.bank addr denom +
        totalOf addr (fun r => amountOf r.coins denom) (deliverAll k s calls).1 =
      k.bank.balance s.bank addr denom +
        (if addr = k.bank.moduleAddress k.feeCollectorName then
          ((deliverAll k s calls).1.map fun r => amountOf r.coins denom).sum else 0) := by
  apply deliverAll_induction (P := fun s rs u =>
    k.bank.balance u.bank addr denom + totalOf addr (fun r => amountOf r.coins denom) rs =
      k.bank.balance s.bank addr denom +
        (if addr = k.bank.moduleAddress k.feeCollectorName then
          (rs.map fun r => amountOf r.coins denom).sum else 0))
  · intro s
    simp [totalOf]
  · intro s t u call rs hcall ih
    have hone := hcall.balance_add hbank addr denom
    have hcall : (receiptOf k s call).call = call := rfl
    simp only [totalOf, List.map_cons, List.sum_cons, hcall] at ih ⊢
    split_ifs at hone ih ⊢ <;> omega

theorem deliverAll_valid (hmath : k.math.Lawful) (s : State B) (calls : List Call) :
    ∀ r ∈ (deliverAll k s calls).1, r.Valid := by
  apply deliverAll_induction (P := fun _ rs _ => ∀ r ∈ rs, r.Valid)
  · intro s
    exact nofun
  · intro s t u call rs hcall ih
    exact List.forall_mem_cons.mpr ⟨hcall.valid hmath, ih⟩

/-- Over any sequence of charges beans debited and beans owed make up the beans charged.
A fee is the price of the beans debited, cut down to whole coins of each denom, so the
coins taken stand for all of them where the minimum debit comes to whole coins. -/
theorem chargeBeans_conserves (hmath : k.math.Lawful) (hbank : k.bank.Lawful) :
    (∀ (s : State B) (calls : List Call),
      (∀ addr, getBeansOwing (deliverAll k s calls).2 addr +
          totalOf addr Receipt.beansDebited (deliverAll k s calls).1 =
        getBeansOwing s addr + totalOf addr (fun r => r.call.beans) (deliverAll k s calls).1) ∧
      (∀ addr denom, k.bank.balance (deliverAll k s calls).2.bank addr denom +
          totalOf addr (fun r => amountOf r.coins denom) (deliverAll k s calls).1 =
        k.bank.balance s.bank addr denom +
          (if addr = k.bank.moduleAddress k.feeCollectorName then
            ((deliverAll k s calls).1.map fun r => amountOf r.coins denom).sum else 0)) ∧
      (∀ r ∈ (deliverAll k s calls).1, r.Valid) ∧
      (∀ addr denom,
        (∀ r ∈ (deliverAll k s calls).1, r.call.addr = addr → r.WholeCoins denom) →
        totalOf addr (Receipt.beansPaid denom) (deliverAll k s calls).1 +
            getBeansOwing (deliverAll k s calls).2 addr =
          (getBeansOwing s addr +
            totalOf addr (fun r => r.call.beans) (deliverAll k s calls).1 : Nat))) ∧
    ∀ (s : State B) (call : Call),
      (∀ t, call.run k s = .ok ⟨⟩ t →
        ∃ minFeeDebit, call.beansPerUnit.lookup "minFeeDebit" = some minFeeDebit ∧
          getBeansOwing t call.addr < minFeeDebit) ∧
      ∀ fault t, call.run k s = .error fault t →
        Refused k call s t ∧ deliver k s call = ([], s) := by
  refine ⟨fun s calls => ⟨?_, ?_, ?_, ?_⟩, fun s call => ⟨?_, ?_⟩⟩
  · exact deliverAll_owing s calls
  · exact deliverAll_balance hbank s calls
  · exact deliverAll_valid hmath s calls
  · intro addr denom hwhole
    have hvalid := deliverAll_valid hmath s calls
    have hpaid := totalOf_cast (f := Receipt.beansDebited) (g := Receipt.beansPaid denom)
      fun r hr haddr => (hvalid r hr).beansPaid_eq (hwhole r hr haddr)
    have howing := deliverAll_owing (k := k) s calls addr
    rw [hpaid, ← howing, Nat.cast_add, add_comm]
  · intro t hrun
    have hspec := call.run_spec k s
    have hcharged := wp_of_ok hspec hrun
    have hlt := hcharged.owing_lt
    have hpos := hcharged.min_pos
    cases hmin : call.beansPerUnit.lookup "minFeeDebit" with
    | none => simp [receiptOf, hmin] at hpos
    | some minFeeDebit =>
      refine ⟨minFeeDebit, rfl, ?_⟩
      simpa only [receiptOf, hmin, Option.getD_some] using hlt
  · intro fault t hrun
    have hspec := call.run_spec k s
    have hrefused := wp_of_error hspec hrun
    refine ⟨hrefused, ?_⟩
    rw [deliver, hrun]

end Runs

def exampleKeeper : Keeper (String → String → Nat) String where
  bank := mapBank
  math := sdkMath
  feeCollectorName := "feeCollector"

def exampleState : State (String → String → Nat) where
  bank account denom := if account = "alice" ∧ denom = "ubld" then 5 else 0

def exampleCall (price feeUnit minFeeDebit beans : Nat) : Call where
  feeUnitPrice := [⟨"ubld", price⟩]
  beansPerUnit := ((∅ : Table String Nat).insert "feeUnit" feeUnit).insert "minFeeDebit" minFeeDebit
  addr := "alice"
  beans := beans

/-- Of 13 and 30 beans at 10 for a coin, the second charge is refused for want of funds. -/
theorem chargeBeans_conserves_refusal :
    (deliverAll exampleKeeper exampleState [exampleCall 1 10 10 13, exampleCall 2 10 10 30]).1.map
        (·.coins) = [[⟨"ubld", 1⟩]] ∧
      ∀ addr, getBeansOwing (deliverAll exampleKeeper exampleState
          [exampleCall 1 10 10 13, exampleCall 2 10 10 30]).2 addr +
          totalOf addr Receipt.beansDebited (deliverAll exampleKeeper exampleState
            [exampleCall 1 10 10 13, exampleCall 2 10 10 30]).1 =
        getBeansOwing exampleState addr +
          totalOf addr (fun r => r.call.beans) (deliverAll exampleKeeper exampleState
            [exampleCall 1 10 10 13, exampleCall 2 10 10 30]).1 :=
  ⟨by decide +kernel,
    (((chargeBeans_conserves (k := exampleKeeper) sdkMath_lawful mapBank_lawful).1
      exampleState _).1)⟩

/-- A debit of half a coin is no coin, and is not owed any more. -/
theorem chargeBeans_forgives :
    (deliverAll exampleKeeper exampleState [exampleCall 1 2 1 1]).1.length = 1 ∧
      ¬ totalOf "alice" (Receipt.beansPaid "ubld")
            (deliverAll exampleKeeper exampleState [exampleCall 1 2 1 1]).1 +
          getBeansOwing (deliverAll exampleKeeper exampleState [exampleCall 1 2 1 1]).2 "alice" =
        (getBeansOwing exampleState "alice" + totalOf "alice" (fun r => r.call.beans)
          (deliverAll exampleKeeper exampleState [exampleCall 1 2 1 1]).1 : Nat) := by
  decide +kernel

end AgoricSdk.Fees
