import AgoricSdk.ERTP.LedgerBooks

/-!
The recovery of all the payments of a purse, and minting, which passes through the
mint recovery purse. Both make several deposits and withdrawals one after the other.
-/

namespace AgoricSdk.ERTP

open StateProgram

variable {β κ : Type} [DecidableEq β] [DecidableEq κ] {issuer : Issuer β κ} {s t : Ledger β κ}
  {p : PurseID} {st : PurseState β κ} {r : Remotable} {a : Amount β κ}

namespace Books

variable {b b' b'' : Books β κ}

/-- Payments are only taken away; those that stay are kept in the same recovery sets. -/
def Removes (b b' : Books β κ) : Prop :=
  ∀ r a, b'.payment r = some a → b.payment r = some a ∧ b'.recovery r = b.recovery r

omit [DecidableEq β] [DecidableEq κ] in
theorem Removes.refl (b : Books β κ) : Removes b b := fun _ _ h => ⟨h, rfl⟩

omit [DecidableEq β] [DecidableEq κ] in
theorem Removes.trans (h : Removes b b') (h' : Removes b' b'') : Removes b b'' := by
  intro r a hr
  obtain ⟨hr', hkept⟩ := h' r a hr
  obtain ⟨hr'', hkept'⟩ := h r a hr'
  exact ⟨hr'', hkept.trans hkept'⟩

omit [DecidableEq β] [DecidableEq κ] in
theorem removes_withoutPayment (b : Books β κ) (r : Remotable) :
    Removes b (b.withoutPayment r) := by
  intro r' a hr'
  dsimp only [withoutPayment] at hr' ⊢
  rw [Function.update_apply] at hr' ⊢
  split at hr'
  case isTrue => cases hr'
  case isFalse hne => exact ⟨hr', if_neg hne⟩

omit [DecidableEq β] [DecidableEq κ] in
theorem removes_withBalance (b : Books β κ) (p : PurseID) (a : Amount β κ) :
    Removes b (b.withBalance p a) := fun _ _ h => ⟨h, rfl⟩

/-- The units of the payments. -/
def worthOf (b : Books β κ) (rs : List Remotable) (c : Option κ) : Nat :=
  (rs.map fun r => (b.payment r).elim 0 fun a => a.worth c).sum

/-- The payments can be added to the balance: no unit of a unique asset is there twice. -/
def Fits (issuer : Issuer β κ) (b : Books β κ) (balance : Amount β κ) (rs : List Remotable) : Prop :=
  issuer.assetKind.Unique → ∀ c, balance.worth c + b.worthOf rs c ≤ 1

omit [DecidableEq β] in
theorem worthOf_cons (b : Books β κ) (r : Remotable) (rs : List Remotable) (c : Option κ) :
    b.worthOf (r :: rs) c = (b.payment r).elim 0 (fun a => a.worth c) + b.worthOf rs c := by
  rw [worthOf, List.map_cons, List.sum_cons]
  rfl

end Books

open Books

/-! ## Recovery -/

/-- All the payments of a recovery set were deposited. -/
structure Recovered (issuer : Issuer β κ) (s : Ledger β κ) (p : PurseID) (st : PurseState β κ)
    (t : Ledger β κ) : Prop where
  wellFormed : t.books.WellFormed issuer
  purse : ∃ st', t.books.purse p = some st' ∧ st'.recoverySet = [] ∧
    ∀ c, st'.currentBalance.worth c = st.currentBalance.worth c + s.books.worthOf st.recoverySet c
  others : ∀ q, q ≠ p → t.books.purse q = s.books.purse q
  payment : ∀ r, t.books.payment r = if r ∈ st.recoverySet then none else s.books.payment r
  recovery : ∀ r, t.books.recovery r = if r ∈ st.recoverySet then none else s.books.recovery r
  continues : Continues s t

/-- A payment was lost that does not fit. -/
structure Lost (issuer : Issuer β κ) (s : Ledger β κ) (st : PurseState β κ) (t : Ledger β κ) :
    Prop where
  wellFormed : t.books.WellFormed issuer
  removes : Removes s.books t.books
  purses : ∀ q, (t.books.purse q).isSome = (s.books.purse q).isSome
  lost : ∃ r ∈ st.recoverySet, t.books.payment r = none
  notFits : ¬ s.books.Fits issuer st.currentBalance st.recoverySet
  continues : Continues s t

theorem recoverOne (hl : issuer.lib.Lawful) (h : s.books.WellFormed issuer)
    (hp : s.purses.lookup p = some st) {rs : List Remotable} (hset : st.recoverySet = r :: rs) :
    ∃ a, s.books.payment r = some a ∧
      Wp (deposit issuer p (.remotable r) .absent)
        (fun delta t => delta = a ∧ ∃ sum,
          AmountMath.add issuer.lib st.currentBalance a none = some sum ∧
          t.books = (s.books.withoutPayment r).withBalance p sum ∧
          t.books.purse p = some { currentBalance := sum, recoverySet := rs } ∧ Continues s t)
        (fun _ t => t.books = s.books.withoutPayment r ∧
          AmountMath.add issuer.lib st.currentBalance a none = none ∧ Continues s t) s := by
  have hkept := h.recovered r p st hp (hset ▸ List.mem_cons_self ..)
  obtain ⟨a, -, ha, -⟩ := h.recoverable r p hkept
  have hchecked : s.books.checked (.remotable r) .absent = some (r, a) := by
    rw [checked, ha]
    rfl
  have hsum : s.books.sum issuer p a = AmountMath.add issuer.lib st.currentBalance a none := by
    dsimp only [Books.sum]
    rw [show s.books.purse p = some st from hp]
    rfl
  refine ⟨a, ha, wp_mono (deposit_books hl h hp (.remotable r) .absent) ?_ ?_⟩
  · rintro delta t ⟨r', sum, hr', hadd, hbooks, hcontinues⟩
    rw [hchecked] at hr'
    cases hr'
    refine ⟨rfl, sum, hsum.symm.trans hadd, hbooks, ?_, hcontinues⟩
    rw [hbooks]
    dsimp only [withBalance, withoutPayment]
    rw [if_pos rfl, show s.books.purse p = some st from hp, Option.map_some, Option.map_some, hset,
      List.erase_cons_head]
  · rintro _ t (⟨hnone, -⟩ | ⟨r', a', hr', hnone, hbooks, hcontinues⟩)
    · rw [hchecked] at hnone
      cases hnone
    · rw [hchecked] at hr'
      cases hr'
      exact ⟨hbooks, hsum.symm.trans hnone, hcontinues⟩

omit [DecidableEq β] in
/-- What is used up does not matter for the other payments. -/
theorem worthOf_withoutPayment {rs : List Remotable} (hr : r ∉ rs) (c : Option κ)
    (hbooks : t.books.payment = (s.books.withoutPayment r).payment) :
    t.books.worthOf rs c = s.books.worthOf rs c := by
  refine congrArg List.sum (List.map_congr_left fun r' hr' => ?_)
  have hne : r' ≠ r := by
    rintro rfl
    exact hr hr'
  rw [hbooks]
  dsimp only [withoutPayment]
  rw [Function.update_of_ne hne]

/-- Every turn of the loop takes one payment out of the recovery set. The induction is on
the payments that are left; the sum stays below the balance, so that it can be added up. -/
theorem recoverPayments_books (hl : issuer.lib.Lawful) (rs : List Remotable)
    (h : s.books.WellFormed issuer) (hp : s.purses.lookup p = some st) (hset : st.recoverySet = rs)
    (ha : issuer.Proper a) (hle : a.worth ≤ st.currentBalance.worth) :
    Wp (recoverPayments issuer p rs a)
      (fun sum t => Recovered issuer s p st t ∧ issuer.Proper sum ∧
        ∀ c, sum.worth c = a.worth c + s.books.worthOf rs c)
      (fun _ t => Lost issuer s st t) s := by
  induction rs generalizing s st a with
  | nil =>
    refine ⟨⟨h, ⟨st, hp, hset, ?_⟩, fun _ _ => rfl, ?_, ?_, .refl s⟩, ha, fun c => rfl⟩
    · intro c
      rw [hset]
      rfl
    · intro r
      rw [hset, if_neg (List.not_mem_nil)]
    · intro r
      rw [hset, if_neg (List.not_mem_nil)]
  | cons r rs ih =>
    have hnodup : (r :: rs).Nodup := hset ▸ h.nodup p st hp
    obtain ⟨hnot, -⟩ := List.nodup_cons.mp hnodup
    have hkept := h.recovered r p st hp (hset ▸ List.mem_cons_self ..)
    obtain ⟨x, hx, hdeposit⟩ := recoverOne hl h hp hset
    have hbalance := h.balances p st hp
    have hproper := h.payments r x hx
    have hworth : ∀ c, s.books.worthOf (r :: rs) c = x.worth c + s.books.worthOf rs c := by
      intro c
      rw [worthOf_cons, hx]
      rfl
    simp only [recoverPayments, wp_bind]
    refine wp_mono hdeposit ?_ ?_
    · rintro _ u ⟨rfl, sum, hadd, hbooks, hpurse, hcontinues⟩
      obtain ⟨hsum, hsumworth⟩ := hbalance.add hl hproper hadd
      have hwell : u.books.WellFormed issuer :=
        hbooks ▸ (h.withoutPayment r).withBalance hsum p
      have hpayment : u.books.payment = (s.books.withoutPayment r).payment := by rw [hbooks]; rfl
      have hrest : ∀ c, u.books.worthOf rs c = s.books.worthOf rs c := fun c =>
        worthOf_withoutPayment hnot c hpayment
      -- The sum so far is part of the balance, which is a proper amount.
      obtain ⟨total, htotal⟩ := Option.isSome_iff_exists.mp
        (AmountMath.add_isSome hl ha.valid hproper.valid fun hu c => by
          have hone := AmountMath.worth_le_one hl hsum.valid hu c
          rw [hsumworth, Pi.add_apply] at hone
          have hc : a.worth c ≤ st.currentBalance.worth c := hle c
          omega)
      obtain ⟨htotalproper, htotalworth⟩ := ha.add hl hproper htotal
      have hle' : total.worth ≤ sum.worth := by
        intro c
        have hc : a.worth c ≤ st.currentBalance.worth c := hle c
        rw [htotalworth, hsumworth]
        exact Nat.add_le_add_right hc _
      rw [AmountMath.add_brand ha.valid hproper.valid, htotal]
      simp only [orThrow, wp_pure]
      refine wp_mono (ih hwell hpurse rfl htotalproper hle') ?_ ?_
      · rintro _ t ⟨ht, hresult, hresultworth⟩
        obtain ⟨st', hst', hempty, hbalance'⟩ := ht.purse
        refine ⟨⟨ht.wellFormed, ⟨st', hst', hempty, fun c => ?_⟩, fun q hq => ?_, fun r' => ?_,
          fun r' => ?_, hcontinues.trans ht.continues⟩, hresult, fun c => ?_⟩
        · rw [hbalance', hset, hworth, hrest, hsumworth, Pi.add_apply]
          omega
        · rw [ht.others q hq, hbooks]
          dsimp only [withBalance]
          rw [if_neg hq]
          refine h.purse_withoutPayment ?_
          rw [hkept]
          exact fun heq => hq (Option.some.inj heq).symm
        · rw [ht.payment, hset, hpayment]
          dsimp only [withoutPayment]
          rw [Function.update_apply]
          simp only [List.mem_cons]
          by_cases hr' : r' = r <;> simp [hr']
        · rw [ht.recovery, hset, hbooks]
          dsimp only [withBalance, withoutPayment]
          rw [Function.update_apply]
          simp only [List.mem_cons]
          by_cases hr' : r' = r <;> simp [hr']
        · rw [hresultworth, htotalworth, hworth, hrest, Pi.add_apply]
          omega
      · intro _ t ht
        obtain ⟨r', hr', hlost⟩ := ht.lost
        refine ⟨ht.wellFormed, ?_, fun q => ?_, ⟨r', ?_, hlost⟩, fun hfits => ?_,
          hcontinues.trans ht.continues⟩
        · refine ((removes_withoutPayment s.books r).trans (removes_withBalance _ p sum)).trans ?_
          exact hbooks ▸ ht.removes
        · rw [ht.purses, hbooks]
          dsimp only [withBalance, withoutPayment]
          split <;> simp
        · exact hset ▸ List.mem_cons_of_mem _ hr'
        · refine ht.notFits fun hu c => ?_
          have hone := hfits hu c
          rw [hset, hworth] at hone
          rw [hrest, hsumworth, Pi.add_apply]
          omega
    · rintro _ u ⟨hbooks, hnone, hcontinues⟩
      refine ⟨hbooks ▸ h.withoutPayment r, hbooks ▸ removes_withoutPayment s.books r, fun q => ?_,
        ⟨r, hset ▸ List.mem_cons_self .., ?_⟩, fun hfits => ?_, hcontinues⟩
      · rw [hbooks]
        dsimp only [withoutPayment]
        simp
      · rw [hbooks]
        exact Function.update_self ..
      · have hsome := AmountMath.add_isSome hl hbalance.valid hproper.valid fun hu c => by
          have hone := hfits hu c
          rw [hset, hworth] at hone
          omega
        rw [hnone] at hsome
        cases hsome

/-- A purse that can be used takes back all the payments of its recovery set, unless they
do not fit. -/
theorem recoverAll_books (hl : issuer.lib.Lawful) (h : s.books.WellFormed issuer)
    (hp : s.purses.lookup p = some st) :
    Wp (recoverAll issuer p)
      (fun sum t => if issuer.recoverySetsState = .hasRecoverySets then
          Recovered issuer s p st t ∧ ∀ c, sum.worth c = s.books.worthOf st.recoverySet c
        else t = s ∧ issuer.usable st ∧ sum.worth = 0)
      (fun _ t => t = s ∧ ¬ issuer.usable st ∨
        issuer.recoverySetsState = .hasRecoverySets ∧ Lost issuer s st t) s := by
  have hempty := Issuer.proper_makeEmpty hl
  have hzero := (AmountMath.makeEmpty_valid hl issuer.brand issuer.assetKind).2
  simp only [recoverAll, wp_bind]
  refine wp_mono (maybeRecoverySet_books hp) ?_ fun _ _ he => .inl he
  rintro optRecoverySet s ⟨rfl, husable, rfl⟩
  by_cases hmode : issuer.recoverySetsState = .hasRecoverySets
  · simp only [if_pos hmode, wp_bind, getPurse, wp_get, hp, orThrow, wp_pure]
    refine wp_mono (recoverPayments_books hl st.recoverySet h hp rfl hempty ?_) ?_
      fun _ _ he => .inr ⟨hmode, he⟩
    · rw [hzero]
      exact fun c => Nat.zero_le _
    · rintro sum t ⟨ht, hsum, hworth⟩
      obtain ⟨st', hst', hnil, -⟩ := ht.purse
      have hlookup : t.purses.lookup p = some st' := hst'
      simp only [hlookup, wp_pure, hnil, List.length_nil, ne_eq, not_true_eq_false, if_false]
      refine wp_mono (returnsAmount_spec hsum.shape) ?_ fun _ _ he => he.elim
      rintro _ _ ⟨rfl, rfl⟩
      refine ⟨ht, fun c => ?_⟩
      rw [hworth, hzero, Pi.zero_apply, Nat.zero_add]
  · simp only [if_neg hmode]
    refine wp_mono (returnsAmount_spec hempty.shape) ?_ fun _ _ he => he.elim
    rintro _ _ ⟨rfl, rfl⟩
    exact ⟨rfl, husable, hzero⟩

/-! ## Minting -/

namespace Books

variable {b : Books β κ}

omit [DecidableEq β] [DecidableEq κ] in
theorem withBalance_withBalance (b : Books β κ) (p : PurseID) (a a' : Amount β κ) :
    (b.withBalance p a).withBalance p a' = b.withBalance p a' := by
  refine Books.ext rfl rfl ?_
  funext q
  dsimp only [withBalance]
  split
  case isTrue => rw [Option.map_map]; rfl
  case isFalse => rfl

omit [DecidableEq β] [DecidableEq κ] in
theorem purse_withBalance_self (hp : b.purse p = some st) (a : Amount β κ) :
    (b.withBalance p a).purse p = some { st with currentBalance := a } := by
  dsimp only [withBalance]
  rw [if_pos rfl, hp]
  rfl

omit [DecidableEq β] [DecidableEq κ] in
/-- A new payment does not change the balances. -/
theorem balance_withPayment {optRecoverySet : Option PurseID} (hp : b.purse p = some st)
    (r : Remotable) (a : Amount β κ) :
    ∃ st', (b.withPayment r a optRecoverySet).purse p = some st' ∧
      st'.currentBalance = st.currentBalance := by
  dsimp only [withPayment]
  split
  case isTrue =>
    rw [hp]
    exact ⟨_, rfl, rfl⟩
  case isFalse => exact ⟨st, hp, rfl⟩

omit [DecidableEq β] [DecidableEq κ] in
theorem isSome_withBalance (b : Books β κ) (p q : PurseID) (a : Amount β κ) :
    ((b.withBalance p a).purse q).isSome = (b.purse q).isSome := by
  dsimp only [withBalance]
  split <;> simp

omit [DecidableEq β] [DecidableEq κ] in
theorem isSome_withPayment (b : Books β κ) (r : Remotable) (a : Amount β κ)
    (optRecoverySet : Option PurseID) (q : PurseID) :
    ((b.withPayment r a optRecoverySet).purse q).isSome = (b.purse q).isSome := by
  dsimp only [withPayment]
  split <;> simp

theorem WellFormed.withoutPayment_withPayment (h : b.WellFormed issuer)
    (hnew : b.payment r = none) : (b.withPayment r a none).withoutPayment r = b := by
  have hunkept := h.recovery_eq_none hnew
  refine Books.ext ?_ ?_ ?_
  · dsimp only [Books.withoutPayment, Books.withPayment]
    rw [Function.update_idem]
    exact Function.update_eq_self_iff.mpr hnew.symm
  · dsimp only [Books.withoutPayment, Books.withPayment]
    exact Function.update_eq_self_iff.mpr hunkept.symm
  · funext q
    refine h.purse_withoutPayment ?_
    rw [hunkept]
    exact fun heq => by cases heq

end Books

/-- `keyEQ` compares every key with itself as equal. -/
def KeyEQReflexive (lib : StoreLib κ) : Prop :=
  ∀ kind v, (helpers lib kind).Coerced v → lib.keyEQ v v = true

omit [DecidableEq κ] in
theorem Issuer.keyEQ_self (hk : KeyEQReflexive issuer.lib) (ha : issuer.Proper a) :
    issuer.keyEQ a a = true := by
  simp [Issuer.keyEQ, hk _ _ ha.valid.coerced]

theorem Issuer.keptIn_eq_some (hl : issuer.lib.Lawful) (ha : issuer.Proper a) {q : PurseID}
    (h : issuer.keptIn p a = some q) :
    issuer.recoverySetsState = .hasRecoverySets ∧ q = p ∧ a.worth ≠ 0 := by
  obtain ⟨empty, hempty, hiff⟩ := AmountMath.isEmpty_valid hl ha.valid
  dsimp only [Issuer.keptIn] at h
  split at h
  case isTrue hkept =>
    rw [hempty] at hkept
    obtain ⟨hmode, heq⟩ := hkept
    refine ⟨hmode, (Option.some.inj h).symm, fun hzero => ?_⟩
    rw [hiff.mpr hzero] at heq
    cases heq
  case isFalse => cases h

theorem Issuer.keptIn_of_worth (hl : issuer.lib.Lawful)
    (hmode : issuer.recoverySetsState = .hasRecoverySets) (ha : issuer.Proper a)
    (hworth : a.worth ≠ 0) : issuer.keptIn p a = some p := by
  obtain ⟨empty, hempty, hiff⟩ := AmountMath.isEmpty_valid hl ha.valid
  cases empty with
  | true => exact absurd (hiff.mp rfl) hworth
  | false => exact if_pos ⟨hmode, hempty⟩

theorem Consistent.withdrawn (hl : issuer.lib.Lawful) (h : Consistent issuer s)
    (hp : s.books.purse p = some st) {difference : Amount β κ} (hd : issuer.Proper difference)
    (ha : issuer.Proper a) (hr : ∃ n, s.nextPayment ≤ n ∧ n < t.nextPayment ∧ r = .payment n)
    (hbooks : t.books = (s.books.withBalance p difference).withPayment r a (issuer.keptIn p a))
    (hc : Continues s t) : Consistent issuer t := by
  obtain ⟨n, hle, hlt, rfl⟩ := hr
  have hnew := h.payment_new hle
  refine h.of_books hc ?_ (fun r' a' hr' => ?_) fun q => ?_
  · rw [hbooks]
    refine (h.wellFormed.withBalance hd p).withPayment ha hnew fun q hq => ?_
    obtain ⟨-, rfl, hworth⟩ := Issuer.keptIn_eq_some hl ha hq
    exact ⟨hworth, _, purse_withBalance_self hp difference⟩
  · rw [hbooks] at hr'
    dsimp only [Books.withPayment] at hr'
    rw [Function.update_apply] at hr'
    split at hr'
    case isTrue heq => exact .inr ⟨n, hlt, heq⟩
    case isFalse => exact .inl ⟨a', hr'⟩
  · rw [hbooks, isSome_withPayment, isSome_withBalance]

/-- The books after the amount was minted as the payment. -/
def Books.minted (issuer : Issuer β κ) (b : Books β κ) (m : PurseID) (r : Remotable)
    (a difference : Amount β κ) : Books β κ :=
  (b.withBalance m difference).withPayment r a (issuer.keptIn m a)

theorem getCurrentAmount_books (h : s.books.WellFormed issuer)
    (hp : s.purses.lookup p = some st) :
    Wp (getCurrentAmount issuer p) (fun a t => t = s ∧ a = st.currentBalance)
      (fun _ _ => False) s := by
  simp only [getCurrentAmount, getAmount, getPurse, wp_bind, wp_get, hp, orThrow, wp_pure]
  refine wp_mono (returnsAmount_spec (h.balances p st hp).shape) ?_ fun _ _ he => he
  rintro a t ⟨rfl, rfl⟩
  exact ⟨rfl, rfl⟩

/-- What a mint comes to. It throws before it changes the books, or as the amount does not
fit, or past the deposit in the mint recovery purse. -/
theorem mintPayment_books (hl : issuer.lib.Lawful) (hk : KeyEQReflexive issuer.lib)
    (h : Consistent issuer s) (hp : s.purses.lookup s.mintRecoveryPurse = some st)
    (newAmount : Specimen β κ) :
    Wp (mintPayment issuer newAmount)
      (fun r t => ∃ a sum difference, issued issuer newAmount = some a ∧ issuer.usable st ∧
        AmountMath.add issuer.lib st.currentBalance a none = some sum ∧
        AmountMath.subtract issuer.lib sum a none = some difference ∧
        issuer.keyEQ st.currentBalance difference = true ∧
        (∃ n, s.nextPayment ≤ n ∧ n < t.nextPayment ∧ r = .payment n) ∧
        t.books = s.books.minted issuer s.mintRecoveryPurse r a difference ∧ Continues s t)
      (fun _ t => Continues s t ∧ (t.books = s.books ∧ (∀ a, issued issuer newAmount = some a →
          AmountMath.add issuer.lib st.currentBalance a none = none) ∨
        ∃ a sum, issued issuer newAmount = some a ∧
          AmountMath.add issuer.lib st.currentBalance a none = some sum ∧
          (¬ issuer.usable st ∧ t.books = s.books.withBalance s.mintRecoveryPurse sum ∨
            issuer.usable st ∧ ∃ difference n,
              AmountMath.subtract issuer.lib sum a none = some difference ∧
              issuer.keyEQ st.currentBalance difference = false ∧
              s.nextPayment ≤ n ∧ n < t.nextPayment ∧
              t.books = s.books.minted issuer s.mintRecoveryPurse (.payment n) a difference)))
      s := by
  simp only [mintPayment, wp_bind]
  refine wp_mono (amountArg_spec newAmount) ?_ ?_
  rotate_left
  · rintro _ s ⟨rfl, hbad⟩
    refine ⟨.refl _, .inl ⟨rfl, fun a ha => ?_⟩⟩
    cases newAmount with
    | amount b => simp [issued, hbad b rfl] at ha
    | _ => cases ha
  rintro b s ⟨rfl, rfl, hshape⟩
  cases hcoerce : AmountMath.coerce issuer.lib issuer.brand b with
  | none =>
    refine ⟨.refl _, .inl ⟨rfl, fun a ha => ?_⟩⟩
    simp [issued, hshape, hcoerce] at ha
  | some a =>
    obtain ⟨ha, -⟩ := Issuer.proper_coerce hl hshape hcoerce
    have hissued : issued issuer (.amount b) = some a := by
      simp [issued, hshape, hcoerce, Option.filter, ha.shape]
    have hbalance := h.wellFormed.balances _ st hp
    have hnew : s.paymentLedger.lookup (.payment s.nextPayment) = none := h.payment_new le_rfl
    simp only [orThrow, wp_pure, ha.shape, not_true_eq_false, if_false, makePayment, noteEvent,
      wp_bind, wp_get, wp_modify]
    refine wp_mono (initPayment_books (s := { s with
      nextPayment := s.nextPayment + 1, events := s.events ++ [.minted a] }) hnew ha.shape) ?_
      fun _ _ he => he.elim
    rintro _ t ⟨hbooks, hcontinues⟩
    have hmint : t.mintRecoveryPurse = s.mintRecoveryPurse := hcontinues.mintRecoveryPurse
    have hwell : t.books.WellFormed issuer :=
      hbooks ▸ h.wellFormed.withPayment ha hnew fun _ hnone => by cases hnone
    have hpurse : t.purses.lookup s.mintRecoveryPurse = some st := by
      change t.books.purse _ = _
      rw [hbooks]
      exact hp
    have hchecked : t.books.checked (.remotable (.payment s.nextPayment))
        (.pattern (issuer.keyEQ · a)) = some (.payment s.nextPayment, a) := by
      have hlive : t.books.payment (.payment s.nextPayment) = some a := by
        rw [hbooks]
        exact Function.update_self ..
      simp [checked, hlive, Option.filter, PatternArg.accepts, Issuer.keyEQ_self hk ha]
    have hback : t.books.withoutPayment (.payment s.nextPayment) = s.books := by
      rw [hbooks]
      exact h.wellFormed.withoutPayment_withPayment hnew
    have hsum : t.books.sum issuer s.mintRecoveryPurse a =
        AmountMath.add issuer.lib st.currentBalance a none := by
      dsimp only [Books.sum]
      rw [show t.books.purse s.mintRecoveryPurse = some st from hpurse]
      rfl
    rw [hmint]
    refine wp_mono (getCurrentAmount_books hwell hpurse) ?_ fun _ _ he => he.elim
    rintro _ _ ⟨rfl, rfl⟩
    refine wp_mono (deposit_books hl hwell hpurse _ _) ?_ ?_
    rotate_left
    · rintro _ u (⟨hnone, -⟩ | ⟨r', a', hr', hnone, hu, hcontinues'⟩)
      · rw [hchecked] at hnone
        cases hnone
      · rw [hchecked] at hr'
        cases hr'
        have hall := hcontinues.trans hcontinues'
        refine ⟨⟨(Nat.le_succ _).trans hall.1, hall.2, hall.3⟩, .inl ⟨hu.trans hback, ?_⟩⟩
        intro a' ha'
        rw [hissued] at ha'
        cases ha'
        exact hsum.symm.trans hnone
    rintro _ u ⟨r', sum, hr', hadd, hu, hcontinues'⟩
    rw [hchecked] at hr'
    cases hr'
    rw [hback] at hu
    rw [hsum] at hadd
    obtain ⟨hproper, hworth⟩ := hbalance.add hl ha hadd
    have hto := hcontinues.trans hcontinues'
    have hpurse' : u.purses.lookup s.mintRecoveryPurse =
        some { st with currentBalance := sum } := by
      change u.books.purse _ = _
      rw [hu]
      exact purse_withBalance_self hp sum
    have hconsistent : Consistent issuer u := by
      refine h.of_books ⟨(Nat.le_succ _).trans hto.1, hto.2, hto.3⟩
        (hu ▸ h.wellFormed.withBalance hproper _) (fun r' a' hr' => .inl ⟨a', ?_⟩) fun q => ?_
      · rw [hu] at hr'
        exact hr'
      · rw [hu, isSome_withBalance]
    have hcoerced := AmountMath.coerce_valid ha.valid
    refine wp_mono (withdraw_books hl hconsistent hpurse' (.amount a)) ?_ ?_
    rotate_left
    · rintro _ v ⟨hv, hcontinues'', hcovers⟩
      have hall := hto.trans hcontinues''
      refine ⟨⟨(Nat.le_succ _).trans hall.1, hall.2, hall.3⟩, .inr ⟨a, sum, hissued, hadd, .inl ?_⟩⟩
      refine ⟨fun husable => hcovers husable a rfl ha ?_, hv.trans hu⟩
      rw [hworth]
      exact fun c => Nat.le_add_left ..
    rintro r v ⟨_, a', difference, ⟨⟩, -, ha', husable, hsub, ⟨n, hle, hlt, rfl⟩, hv, hcontinues''⟩
    rw [hcoerced] at ha'
    cases ha'
    have hall := hto.trans hcontinues''
    have hfrom : s.nextPayment ≤ n := (Nat.le_succ _).trans (hto.1.trans hle)
    have hminted : v.books =
        s.books.minted issuer s.mintRecoveryPurse (.payment n) a difference := by
      rw [hv, hu, withBalance_withBalance]
      rfl
    have hwell' : v.books.WellFormed issuer :=
      (hconsistent.withdrawn hl hpurse' (hproper.subtract hl ha hsub).1 ha ⟨n, hle, hlt, rfl⟩ hv
        hcontinues'').wellFormed
    obtain ⟨st', hst', hafter⟩ := balance_withPayment
      (purse_withBalance_self (show s.books.purse s.mintRecoveryPurse = some st from hp) difference)
      (.payment n) a
    have hpurse'' : v.purses.lookup s.mintRecoveryPurse = some st' := by
      change v.books.purse _ = _
      rw [hminted]
      exact hst'
    refine wp_mono (getCurrentAmount_books hwell' hpurse'') ?_ fun _ _ he => he.elim
    rintro _ _ ⟨rfl, rfl⟩
    rw [hafter]
    refine wp_ite (fun heq => ?_) fun hne => ?_
    · exact ⟨a, sum, difference, hissued, husable, hadd, hsub, heq,
        ⟨n, hfrom, hlt.trans_le le_rfl, rfl⟩, hminted, ⟨(Nat.le_succ _).trans hall.1, hall.2, hall.3⟩⟩
    · exact ⟨⟨(Nat.le_succ _).trans hall.1, hall.2, hall.3⟩, .inr ⟨a, sum, hissued, hadd, .inr
        ⟨husable, difference, n, hsub, (by simpa using hne), hfrom, hlt, hminted⟩⟩⟩

end AgoricSdk.ERTP
