import AgoricSdk.ERTP.LedgerConservation

/-!
The books of a payment ledger: what its stores say, as functions, and what each
method does to them, whether it returns or throws. Here nothing is assumed about
what was minted, so that the methods are described in every state that a run can
reach: the books are consistent, but assets may have been lost.
-/

namespace AgoricSdk.ERTP

open StateProgram

variable {β κ : Type} [DecidableEq β] [DecidableEq κ]

/-- The live payments, the purse in whose recovery set a payment is kept, and the
purses. -/
@[ext]
structure Books (β κ : Type) where
  payment : Remotable → Option (Amount β κ)
  recovery : Remotable → Option PurseID
  purse : PurseID → Option (PurseState β κ)

def Ledger.books (s : Ledger β κ) : Books β κ where
  payment := s.paymentLedger.lookup
  recovery := s.paymentRecoverySets.lookup
  purse := s.purses.lookup

namespace Books

variable (b : Books β κ)

/-- The payment is used up and leaves its recovery set. -/
def withoutPayment (r : Remotable) : Books β κ where
  payment := Function.update b.payment r none
  recovery := Function.update b.recovery r none
  purse p := (b.purse p).map fun st => { st with recoverySet := st.recoverySet.erase r }

def withBalance (p : PurseID) (a : Amount β κ) : Books β κ :=
  { b with purse := fun q =>
      if q = p then (b.purse q).map fun st => { st with currentBalance := a } else b.purse q }

/-- A new payment, which may enter a recovery set. -/
def withPayment (r : Remotable) (a : Amount β κ) (optRecoverySet : Option PurseID) :
    Books β κ where
  payment := Function.update b.payment r (some a)
  recovery := if optRecoverySet.isSome then Function.update b.recovery r optRecoverySet
    else b.recovery
  purse q := if optRecoverySet = some q then
      (b.purse q).map fun st => { st with recoverySet := st.recoverySet ++ [r] }
    else b.purse q

variable (issuer : Issuer β κ)

/-- The stores hold amounts of the issuer, and recovery sets hold live payments that are
not empty, each in the set that it is registered with. -/
structure WellFormed : Prop where
  balances : ∀ p st, b.purse p = some st → issuer.Proper st.currentBalance
  payments : ∀ r a, b.payment r = some a → issuer.Proper a
  recoverable : ∀ r p, b.recovery r = some p → ∃ a st, b.payment r = some a ∧ a.worth ≠ 0 ∧
    b.purse p = some st ∧ r ∈ st.recoverySet
  recovered : ∀ r p st, b.purse p = some st → r ∈ st.recoverySet → b.recovery r = some p
  nodup : ∀ p st, b.purse p = some st → st.recoverySet.Nodup

variable {b issuer} {r : Remotable} {p q : PurseID} {st : PurseState β κ} {a : Amount β κ}

theorem WellFormed.recovery_eq_none (h : b.WellFormed issuer) (hr : b.payment r = none) :
    b.recovery r = none := by
  cases hq : b.recovery r with
  | none => rfl
  | some q =>
    obtain ⟨a, -, ha, -⟩ := h.recoverable r q hq
    rw [hr] at ha
    cases ha

theorem WellFormed.erase_of_ne (h : b.WellFormed issuer) (hr : b.recovery r ≠ some q)
    (hq : b.purse q = some st) : st.recoverySet.erase r = st.recoverySet := by
  apply List.erase_of_not_mem
  intro hmem
  exact hr (h.recovered r q st hq hmem)

theorem WellFormed.purse_withoutPayment (h : b.WellFormed issuer) (hr : b.recovery r ≠ some q) :
    (b.withoutPayment r).purse q = b.purse q := by
  dsimp only [withoutPayment]
  cases hq : b.purse q with
  | none => rfl
  | some st => rw [Option.map_some, h.erase_of_ne hr hq]

theorem WellFormed.withoutPayment (h : b.WellFormed issuer) (r : Remotable) :
    (b.withoutPayment r).WellFormed issuer := by
  have hpurse : ∀ p st', (b.withoutPayment r).purse p = some st' → ∃ st, b.purse p = some st ∧
      { st with recoverySet := st.recoverySet.erase r } = st' := by
    intro p st' hp
    exact Option.map_eq_some_iff.mp hp
  constructor
  · intro p st' hp
    obtain ⟨st, hst, rfl⟩ := hpurse p st' hp
    exact h.balances p st hst
  · intro r' a hr'
    dsimp only [Books.withoutPayment] at hr'
    rw [Function.update_apply] at hr'
    split at hr'
    case isTrue => cases hr'
    case isFalse => exact h.payments r' a hr'
  · intro r' p hr'
    dsimp only [Books.withoutPayment] at hr'
    rw [Function.update_apply] at hr'
    split at hr'
    case isTrue => cases hr'
    case isFalse hne =>
      obtain ⟨a, st, ha, hworth, hst, hmem⟩ := h.recoverable r' p hr'
      refine ⟨a, { st with recoverySet := st.recoverySet.erase r }, ?_, hworth, ?_, ?_⟩
      · exact (Function.update_of_ne hne ..).trans ha
      · exact Option.map_eq_some_iff.mpr ⟨st, hst, rfl⟩
      · exact (List.mem_erase_of_ne hne).mpr hmem
  · intro r' p st' hp hmem
    obtain ⟨st, hst, rfl⟩ := hpurse p st' hp
    obtain ⟨hne, hmem⟩ := ((h.nodup p st hst).mem_erase_iff).mp hmem
    exact (Function.update_of_ne hne ..).trans (h.recovered r' p st hst hmem)
  · intro p st' hp
    obtain ⟨st, hst, rfl⟩ := hpurse p st' hp
    exact (h.nodup p st hst).erase r

omit [DecidableEq β] [DecidableEq κ] in
/-- A purse after its balance was written. -/
theorem purse_withBalance {st' : PurseState β κ} (h : (b.withBalance p a).purse q = some st') :
    ∃ st, b.purse q = some st ∧ st'.recoverySet = st.recoverySet ∧
      (st'.currentBalance = a ∨ st'.currentBalance = st.currentBalance) := by
  dsimp only [withBalance] at h
  split at h
  case isTrue =>
    obtain ⟨st, hst, rfl⟩ := Option.map_eq_some_iff.mp h
    exact ⟨st, hst, rfl, .inl rfl⟩
  case isFalse => exact ⟨st', h, rfl, .inr rfl⟩

theorem WellFormed.withBalance (h : b.WellFormed issuer) (ha : issuer.Proper a) (p : PurseID) :
    (b.withBalance p a).WellFormed issuer := by
  constructor
  · intro q st' hq
    obtain ⟨st, hst, -, hbalance | hbalance⟩ := purse_withBalance hq
    · exact hbalance ▸ ha
    · exact hbalance ▸ h.balances q st hst
  · exact h.payments
  · intro r q hr
    obtain ⟨a', st, ha', hworth, hst, hmem⟩ := h.recoverable r q hr
    by_cases hqp : q = p
    · refine ⟨a', { st with currentBalance := a }, ha', hworth, ?_, hmem⟩
      dsimp only [Books.withBalance]
      rw [if_pos hqp, hst]
      rfl
    · refine ⟨a', st, ha', hworth, ?_, hmem⟩
      dsimp only [Books.withBalance]
      rw [if_neg hqp, hst]
  · intro r q st' hq hmem
    obtain ⟨st, hst, hset, -⟩ := purse_withBalance hq
    exact h.recovered r q st hst (hset ▸ hmem)
  · intro q st' hq
    obtain ⟨st, hst, hset, -⟩ := purse_withBalance hq
    exact hset ▸ h.nodup q st hst

omit [DecidableEq β] [DecidableEq κ] in
/-- A purse after a payment was added. -/
theorem purse_withPayment {optRecoverySet : Option PurseID} {st' : PurseState β κ}
    (h : (b.withPayment r a optRecoverySet).purse q = some st') :
    ∃ st, b.purse q = some st ∧ st'.currentBalance = st.currentBalance ∧
      (optRecoverySet = some q ∧ st'.recoverySet = st.recoverySet ++ [r] ∨
        optRecoverySet ≠ some q ∧ st'.recoverySet = st.recoverySet) := by
  dsimp only [withPayment] at h
  split at h
  case isTrue hset =>
    obtain ⟨st, hst, rfl⟩ := Option.map_eq_some_iff.mp h
    exact ⟨st, hst, rfl, .inl ⟨hset, rfl⟩⟩
  case isFalse hset => exact ⟨st', h, rfl, .inr ⟨hset, rfl⟩⟩

theorem WellFormed.withPayment (h : b.WellFormed issuer) (ha : issuer.Proper a)
    (hnew : b.payment r = none) {optRecoverySet : Option PurseID}
    (hset : ∀ p, optRecoverySet = some p → a.worth ≠ 0 ∧ ∃ st, b.purse p = some st) :
    (b.withPayment r a optRecoverySet).WellFormed issuer := by
  have hunkept := h.recovery_eq_none hnew
  have hrecovery : ∀ r', r' ≠ r →
      (b.withPayment r a optRecoverySet).recovery r' = b.recovery r' := by
    intro r' hne
    dsimp only [Books.withPayment]
    split
    · exact Function.update_of_ne hne ..
    · rfl
  have hself : (b.withPayment r a optRecoverySet).recovery r = optRecoverySet := by
    dsimp only [Books.withPayment]
    cases optRecoverySet with
    | none => exact hunkept
    | some p => exact Function.update_self ..
  have hnotmem : ∀ q st, b.purse q = some st → r ∉ st.recoverySet := by
    intro q st hst hmem
    rw [h.recovered r q st hst hmem] at hunkept
    cases hunkept
  constructor
  · intro q st' hq
    obtain ⟨st, hst, hbalance, -⟩ := purse_withPayment hq
    exact hbalance ▸ h.balances q st hst
  · intro r' a' hr'
    dsimp only [Books.withPayment] at hr'
    rw [Function.update_apply] at hr'
    split at hr'
    case isTrue =>
      cases hr'
      exact ha
    case isFalse => exact h.payments r' a' hr'
  · intro r' p hr'
    by_cases hne : r' = r
    · subst hne
      rw [hself] at hr'
      obtain ⟨hworth, st, hst⟩ := hset p hr'
      refine ⟨a, { st with recoverySet := st.recoverySet ++ [r'] }, Function.update_self .., hworth,
        ?_, List.mem_append_right _ (List.mem_singleton_self r')⟩
      dsimp only [Books.withPayment]
      rw [if_pos hr', hst]
      rfl
    · rw [hrecovery r' hne] at hr'
      obtain ⟨a', st, ha', hworth, hst, hmem⟩ := h.recoverable r' p hr'
      have hlive : (b.withPayment r a optRecoverySet).payment r' = some a' :=
        (Function.update_of_ne hne ..).trans ha'
      by_cases hp : optRecoverySet = some p
      · refine ⟨a', { st with recoverySet := st.recoverySet ++ [r] }, hlive, hworth, ?_,
          List.mem_append_left _ hmem⟩
        dsimp only [Books.withPayment]
        rw [if_pos hp, hst]
        rfl
      · refine ⟨a', st, hlive, hworth, ?_, hmem⟩
        dsimp only [Books.withPayment]
        rw [if_neg hp, hst]
  · intro r' q st' hq hmem
    obtain ⟨st, hst, -, ⟨hsome, hsets⟩ | ⟨-, hsets⟩⟩ := purse_withPayment hq
    · rw [hsets, List.mem_append, List.mem_singleton] at hmem
      rcases hmem with hmem | rfl
      · have hne : r' ≠ r := by
          rintro rfl
          exact hnotmem q st hst hmem
        rw [hrecovery r' hne]
        exact h.recovered r' q st hst hmem
      · exact hself.trans hsome
    · rw [hsets] at hmem
      have hne : r' ≠ r := by
        rintro rfl
        exact hnotmem q st hst hmem
      rw [hrecovery r' hne]
      exact h.recovered r' q st hst hmem
  · intro q st' hq
    obtain ⟨st, hst, -, ⟨-, hsets⟩ | ⟨-, hsets⟩⟩ := purse_withPayment hq
    · rw [hsets]
      refine List.nodup_append.mpr ⟨h.nodup q st hst, List.nodup_singleton r, ?_⟩
      rintro x hx _ hy rfl
      rw [List.mem_singleton.mp hy] at hx
      exact hnotmem q st hst hx
    · rw [hsets]
      exact h.nodup q st hst

end Books

/-! ## What the methods depend on -/

/-- Whether a deposit or a burn with the pattern takes a payment of the amount. -/
def PatternArg.accepts : PatternArg β κ → Amount β κ → Bool
  | .absent, _ => true
  | .pattern matching, a => matching a
  | .other, _ => false

/-- The live payment that passes the checks of a deposit or a burn, and its amount. -/
def Books.checked (b : Books β κ) : Specimen β κ → PatternArg β κ → Option (Remotable × Amount β κ)
  | .remotable r, optAmountShape =>
      ((b.payment r).filter optAmountShape.accepts).map fun a => (r, a)
  | _, _ => none

omit [DecidableEq β] [DecidableEq κ] in
theorem Books.payment_of_checked {b : Books β κ} {srcPayment : Specimen β κ}
    {optAmountShape : PatternArg β κ} {r : Remotable} {a : Amount β κ}
    (h : b.checked srcPayment optAmountShape = some (r, a)) : b.payment r = some a := by
  cases srcPayment with
  | remotable r' =>
    obtain ⟨a', ha', heq⟩ := Option.map_eq_some_iff.mp h
    cases heq
    exact (Option.filter_eq_some_iff.mp ha').1
  | _ => cases h

/-- The balance of the purse with the amount added. -/
def Books.sum (issuer : Issuer β κ) (b : Books β κ) (p : PurseID) (a : Amount β κ) :
    Option (Amount β κ) := do
  AmountMath.add issuer.lib (← b.purse p).currentBalance a none

/-- The recovery set that a payment withdrawn from the purse enters. -/
def Issuer.keptIn (issuer : Issuer β κ) (p : PurseID) (a : Amount β κ) : Option PurseID :=
  if issuer.recoverySetsState = .hasRecoverySets ∧ AmountMath.isEmpty issuer.lib a none = some false
  then some p else none

/-- Whether the purse can be used with the recovery sets option: without recovery sets,
its own set must be empty. -/
def Issuer.usable (issuer : Issuer β κ) (st : PurseState β κ) : Prop :=
  issuer.recoverySetsState = .noRecoverySets → st.recoverySet = []

/-! ## Consistent ledgers -/

/-- The books are well formed, and payments and purses have numbers that were given out. -/
structure Consistent (issuer : Issuer β κ) (s : Ledger β κ) : Prop where
  wellFormed : s.books.WellFormed issuer
  numbered : ∀ r, s.paymentLedger.has r = true → ∃ n < s.nextPayment, r = .payment n
  pursesNumbered : ∀ p, s.purses.has p = true → p < s.nextPurse
  mintPurse : s.purses.has s.mintRecoveryPurse = true

/-- Numbers are only used up, and purses stay. -/
structure Continues (s t : Ledger β κ) : Prop where
  nextPayment : s.nextPayment ≤ t.nextPayment
  nextPurse : t.nextPurse = s.nextPurse
  mintRecoveryPurse : t.mintRecoveryPurse = s.mintRecoveryPurse

omit [DecidableEq β] [DecidableEq κ] in
theorem Continues.refl (s : Ledger β κ) : Continues s s := ⟨le_rfl, rfl, rfl⟩

omit [DecidableEq β] [DecidableEq κ] in
theorem Continues.trans {s t u : Ledger β κ} (h : Continues s t) (h' : Continues t u) :
    Continues s u :=
  ⟨h.nextPayment.trans h'.nextPayment, h'.nextPurse.trans h.nextPurse,
    h'.mintRecoveryPurse.trans h.mintRecoveryPurse⟩

section Steps

variable {issuer : Issuer β κ} {s t : Ledger β κ} {p : PurseID} {st : PurseState β κ}
  {r : Remotable} {a : Amount β κ}

theorem Consistent.payment_new (h : Consistent issuer s) {n : Nat} (hn : s.nextPayment ≤ n) :
    s.books.payment (.payment n) = none := by
  cases hlive : s.books.payment (.payment n) with
  | none => rfl
  | some a =>
    obtain ⟨m, hm, heq⟩ := h.numbered _ (Table.has_of_lookup hlive)
    cases heq
    exact absurd hm (Nat.not_lt.mpr hn)

theorem Consistent.of_books (h : Consistent issuer s) (hc : Continues s t)
    (hw : t.books.WellFormed issuer)
    (hpayments : ∀ r a, t.books.payment r = some a →
      (∃ a', s.books.payment r = some a') ∨ ∃ n < t.nextPayment, r = .payment n)
    (hpurses : ∀ p, (t.books.purse p).isSome = (s.books.purse p).isSome) : Consistent issuer t where
  wellFormed := hw
  numbered r hr := by
    obtain ⟨a, ha⟩ := Option.isSome_iff_exists.mp hr
    rcases hpayments r a ha with ⟨a', ha'⟩ | hn
    · obtain ⟨n, hn, hr⟩ := h.numbered r (Table.has_of_lookup ha')
      exact ⟨n, hn.trans_le hc.nextPayment, hr⟩
    · exact hn
  pursesNumbered p hp := by
    rw [hc.nextPurse]
    exact h.pursesNumbered p ((hpurses p).symm.trans hp)
  mintPurse := by
    rw [hc.mintRecoveryPurse]
    exact (hpurses s.mintRecoveryPurse).trans h.mintPurse

theorem deletePayment_books (h : s.books.WellFormed issuer)
    (hr : s.paymentLedger.lookup r = some a) :
    Wp (deletePayment r) (fun _ t => t.books = s.books.withoutPayment r ∧ Continues s t)
      (fun _ _ => False) s := by
  have herase : ∀ {α : Type} (table : Table Remotable α),
      (table.erase r).lookup = Function.update table.lookup r none := by
    intro α table
    funext r'
    rw [Table.lookup_erase, Function.update_apply]
  simp only [deletePayment, wp_bind, wp_get, Table.has_of_lookup hr, not_true_eq_false, if_false,
    wp_modify]
  cases hset : s.paymentRecoverySets.lookup r with
  | none =>
    refine ⟨Books.ext (herase _) ?_ ?_, ⟨le_rfl, rfl, rfl⟩⟩
    · exact (Function.update_eq_self_iff.mpr hset.symm).symm
    · funext q
      refine (h.purse_withoutPayment (r := r) ?_).symm
      intro hq
      rw [show s.books.recovery r = none from hset] at hq
      cases hq
  | some p =>
    obtain ⟨-, st, -, -, hp, hmem⟩ := h.recoverable r p hset
    have hst : s.purses.lookup p = some st := hp
    simp only [wp_bind, wp_modify, deleteFromRecoverySet, getPurse, wp_get, hst, orThrow, wp_pure,
      hmem, if_true, setPurse]
    refine ⟨Books.ext (herase _) (herase _) ?_, ⟨le_rfl, rfl, rfl⟩⟩
    funext q
    change (s.purses.insert p { st with recoverySet := st.recoverySet.erase r }).lookup q = _
    rw [Table.lookup_insert]
    by_cases hq : q = p
    · rw [if_pos hq, hq]
      dsimp only [Books.withoutPayment]
      rw [hp]
      rfl
    · rw [if_neg hq]
      refine (h.purse_withoutPayment (r := r) ?_).symm
      intro hq'
      exact hq (Option.some.inj (hq'.symm.trans hset))

omit [DecidableEq β] [DecidableEq κ] in
theorem books_setBalance (hp : s.purses.lookup p = some st) :
    Ledger.books { s with purses := s.purses.insert p { st with currentBalance := a } } =
      s.books.withBalance p a := by
  refine Books.ext rfl rfl ?_
  funext q
  change (s.purses.insert p { st with currentBalance := a }).lookup q = _
  rw [Table.lookup_insert]
  dsimp only [Books.withBalance]
  split
  case isTrue hq =>
    rw [hq, show s.books.purse p = some st from hp]
    rfl
  case isFalse => rfl

theorem increment_books (hl : issuer.lib.Lawful) (hst : issuer.Proper st.currentBalance)
    (ha : issuer.Proper a) (hp : s.purses.lookup p = some st) :
    Wp (increment issuer p a)
      (fun _ t => ∃ sum, AmountMath.add issuer.lib st.currentBalance a none = some sum ∧
        t.books = s.books.withBalance p sum ∧ Continues s t)
      (fun _ t => t = s ∧ AmountMath.add issuer.lib st.currentBalance a none = none) s := by
  simp only [increment, getAmount, getPurse, wp_bind, wp_get, hp, orThrow, wp_pure]
  cases hsum : AmountMath.add issuer.lib st.currentBalance a none with
  | none => exact ⟨rfl, rfl⟩
  | some sum =>
    obtain ⟨hproper, -⟩ := hst.add hl ha hsum
    simp only [setCurrentBalance, getPurse, wp_bind, wp_get, hp, orThrow, wp_pure, hproper.shape,
      if_true, setPurse, wp_modify]
    exact ⟨sum, rfl, books_setBalance hp, ⟨le_rfl, rfl, rfl⟩⟩

omit [DecidableEq β] [DecidableEq κ] in
/-- A fault past the commit point shuts the ledger down, and what was done stays done. -/
theorem wp_orShutdown_books {m : LedgerM β κ Unit} {Q : Ledger β κ → Prop}
    {E : Ledger β κ → Prop} (hm : Wp m (fun _ t => Q t) (fun _ t => E t) s)
    (hE : ∀ t, E t → E { t with shutdown := true }) :
    Wp (orShutdown issuer m) (fun _ t => Q t) (fun _ t => E t) s := by
  simp only [orShutdown, wp_bind, wp_attempt, wp_pure]
  refine wp_mono hm (fun _ _ ht => ht) fun e t ht => ?_
  simp only [shutdownLedgerWithFailure]
  cases issuer.optShutdownWithFailure with
  | none => exact ht
  | some throwing =>
    simp only [wp_bind, wp_modify]
    exact wp_ite (fun _ => hE t ht) fun _ => hE t ht

/-! ## Deposits and burns -/

omit [DecidableEq β] [DecidableEq κ] in
/-- The checks before the commit point of a deposit or a burn. -/
theorem checks_books (srcPayment : Specimen β κ) (optAmountShape : PatternArg β κ)
    {α : Type} {m : Remotable → Amount β κ → LedgerM β κ α} {Q : α → Ledger β κ → Prop}
    {E : LedgerFault → Ledger β κ → Prop}
    (hm : ∀ r a, s.books.checked srcPayment optAmountShape = some (r, a) →
      s.paymentLedger.lookup r = some a → Wp (m r a) Q E s)
    (hE : ∀ e, s.books.checked srcPayment optAmountShape = none → E e s) :
    Wp (do
      let srcPayment ← paymentArg srcPayment
      let optAmountShape ← patternArg optAmountShape
      let srcPaymentBalance ← getLivePayment srcPayment
      assertAmountConsistent srcPaymentBalance optAmountShape
      m srcPayment srcPaymentBalance) Q E s := by
  cases srcPayment with
  | remotable r =>
    have hchecked : s.books.checked (.remotable r) optAmountShape =
        ((s.paymentLedger.lookup r).filter optAmountShape.accepts).map fun a => (r, a) := rfl
    simp only [paymentArg, wp_bind, wp_pure]
    cases optAmountShape with
    | other =>
      apply hE
      rw [hchecked]
      cases s.paymentLedger.lookup r <;> rfl
    | absent =>
      simp only [patternArg, getLivePayment, wp_bind, wp_pure, wp_get]
      cases hr : s.paymentLedger.lookup r with
      | none =>
        apply hE
        rw [hchecked, hr]
        rfl
      | some a =>
        refine hm r a ?_ hr
        rw [hchecked, hr]
        rfl
    | pattern matching =>
      simp only [patternArg, getLivePayment, wp_bind, wp_pure, wp_get]
      cases hr : s.paymentLedger.lookup r with
      | none =>
        apply hE
        rw [hchecked, hr]
        rfl
      | some a =>
        simp only [orThrow, assertAmountConsistent, wp_pure]
        rw [hr] at hchecked
        refine wp_ite (fun hmatch => hm r a ?_ hr) fun hmatch => hE _ ?_
        · rw [hchecked]
          simp [Option.filter, PatternArg.accepts, hmatch]
        · rw [hchecked]
          simp [Option.filter, PatternArg.accepts, hmatch]
  | amount a => exact hE _ rfl
  | promise => exact hE _ rfl
  | other => exact hE _ rfl

/-- A payment that passes the checks is used up. It is lost if its amount cannot be added
to the balance. -/
theorem deposit_books (hl : issuer.lib.Lawful) (h : s.books.WellFormed issuer)
    (hp : s.purses.lookup p = some st) (srcPayment : Specimen β κ)
    (optAmountShape : PatternArg β κ) :
    Wp (deposit issuer p srcPayment optAmountShape)
      (fun a t => ∃ r sum, s.books.checked srcPayment optAmountShape = some (r, a) ∧
        s.books.sum issuer p a = some sum ∧
        t.books = (s.books.withoutPayment r).withBalance p sum ∧ Continues s t)
      (fun _ t => s.books.checked srcPayment optAmountShape = none ∧ t = s ∨
        ∃ r a, s.books.checked srcPayment optAmountShape = some (r, a) ∧
          s.books.sum issuer p a = none ∧ t.books = s.books.withoutPayment r ∧ Continues s t)
      s := by
  simp only [deposit, depositInternal, bind_assoc, pure_bind]
  refine checks_books srcPayment optAmountShape (fun r a hchecked hr => ?_) fun _ hchecked =>
    .inl ⟨hchecked, rfl⟩
  have ha := h.payments r a hr
  have hsum : s.books.sum issuer p a =
      AmountMath.add issuer.lib st.currentBalance a none := by
    dsimp only [Books.sum]
    rw [show s.books.purse p = some st from hp]
    rfl
  have hcommit : Wp (do
      deletePayment r
      increment issuer p a
      noteEvent (.credited r p))
      (fun _ t => ∃ sum, s.books.sum issuer p a = some sum ∧
        t.books = (s.books.withoutPayment r).withBalance p sum ∧ Continues s t)
      (fun _ t => s.books.sum issuer p a = none ∧ t.books = s.books.withoutPayment r ∧
        Continues s t) s := by
    simp only [wp_bind]
    refine wp_mono (deletePayment_books h hr) ?_ fun _ _ he => he.elim
    rintro _ t ⟨hbooks, hcontinues⟩
    have hst : t.purses.lookup p = some { st with recoverySet := st.recoverySet.erase r } := by
      change t.books.purse p = _
      rw [hbooks]
      dsimp only [Books.withoutPayment]
      rw [show s.books.purse p = some st from hp]
      rfl
    refine wp_mono (increment_books hl ?_ ha hst) ?_ ?_
    · exact h.balances p st hp
    · rintro _ u ⟨sum, hadd, hu, hcontinues'⟩
      have hall := hcontinues.trans hcontinues'
      exact ⟨sum, hsum.trans hadd, hbooks ▸ hu, ⟨hall.1, hall.2, hall.3⟩⟩
    · rintro _ u ⟨rfl, hnone⟩
      exact ⟨hsum.trans hnone, hbooks, hcontinues⟩
  rw [wp_bind]
  refine wp_mono (wp_orShutdown_books hcommit
    fun _ ht => ⟨ht.1, ht.2.1, ⟨ht.2.2.1, ht.2.2.2, ht.2.2.3⟩⟩) ?_ ?_
  · rintro _ t ⟨sum, hadd, hbooks, hcontinues⟩
    refine wp_mono (returnsAmount_spec ha.shape) ?_ fun _ _ he => he.elim
    rintro _ _ ⟨rfl, rfl⟩
    exact ⟨r, sum, hchecked, hadd, hbooks, hcontinues⟩
  · rintro _ t ⟨hnone, hbooks, hcontinues⟩
    exact .inr ⟨r, a, hchecked, hnone, hbooks, hcontinues⟩

theorem burn_books (h : s.books.WellFormed issuer) (payment : Specimen β κ)
    (optAmountShape : PatternArg β κ) :
    Wp (burn issuer payment optAmountShape)
      (fun a t => ∃ r, s.books.checked payment optAmountShape = some (r, a) ∧
        t.books = s.books.withoutPayment r ∧ Continues s t)
      (fun _ t => s.books.checked payment optAmountShape = none ∧ t = s) s := by
  simp only [burn]
  refine checks_books payment optAmountShape (fun r a hchecked hr => ?_) fun _ hchecked =>
    ⟨hchecked, rfl⟩
  have hcommit : Wp (do
      deletePayment r
      noteEvent (.burned r a))
      (fun _ t => t.books = s.books.withoutPayment r ∧ Continues s t) (fun _ _ => False) s := by
    rw [wp_bind]
    refine wp_mono (deletePayment_books h hr) ?_ fun _ _ he => he
    rintro _ t ⟨hbooks, hcontinues⟩
    exact ⟨hbooks, ⟨hcontinues.1, hcontinues.2, hcontinues.3⟩⟩
  rw [wp_bind]
  refine wp_mono (wp_orShutdown hcommit) ?_ fun _ _ he => he
  rintro _ t ⟨hbooks, hcontinues⟩
  refine wp_mono (returnsAmount_spec (h.payments r a hr).shape) ?_ fun _ _ he => he.elim
  rintro _ _ ⟨rfl, rfl⟩
  exact ⟨r, hchecked, hbooks, hcontinues⟩

/-! ## Withdrawals -/

omit [DecidableEq β] [DecidableEq κ] in
theorem maybeRecoverySet_books (hp : s.purses.lookup p = some st) :
    Wp (maybeRecoverySet issuer p)
      (fun q t => t = s ∧ issuer.usable st ∧
        q = if issuer.recoverySetsState = .hasRecoverySets then some p else none)
      (fun _ t => t = s ∧ ¬ issuer.usable st) s := by
  simp only [maybeRecoverySet, getPurse, wp_bind, wp_get, hp, orThrow, wp_pure, Issuer.usable]
  cases hmode : issuer.recoverySetsState with
  | hasRecoverySets => exact ⟨rfl, (by simp), rfl⟩
  | noRecoverySets =>
    refine wp_ite (fun hempty => ?_) fun hempty => ?_
    · exact ⟨rfl, fun _ => List.length_eq_zero_iff.mp hempty, rfl⟩
    · exact ⟨rfl, fun h => hempty (List.length_eq_zero_iff.mpr (h rfl))⟩

theorem decrement_books (hl : issuer.lib.Lawful) (hst : issuer.Proper st.currentBalance)
    (ha : issuer.Proper a) (hp : s.purses.lookup p = some st) :
    Wp (decrement issuer p a)
      (fun enough t => if enough then
        ∃ difference, AmountMath.subtract issuer.lib st.currentBalance a none = some difference ∧
          t.books = s.books.withBalance p difference ∧ Continues s t
      else t = s ∧ ¬ a.worth ≤ st.currentBalance.worth)
      (fun _ _ => False) s := by
  obtain ⟨enough, hgte, hiff⟩ := AmountMath.isGTE_valid hl hst.valid ha.valid
  simp only [decrement, getAmount, getPurse, wp_bind, wp_get, hp, orThrow, wp_pure, hgte]
  cases enough with
  | false => exact ⟨rfl, fun hle => Bool.false_ne_true (hiff.mpr hle)⟩
  | true =>
    obtain ⟨difference, hsub⟩ := Option.isSome_iff_exists.mp
      (AmountMath.subtract_isSome hl hst.valid ha.valid (hiff.mp rfl))
    obtain ⟨hproper, -⟩ := hst.subtract hl ha hsub
    simp only [if_true, wp_bind, wp_get, hp, orThrow, wp_pure, hsub, setCurrentBalance,
      hproper.shape, getPurse, setPurse, wp_modify]
    exact ⟨difference, rfl, books_setBalance hp, ⟨le_rfl, rfl, rfl⟩⟩

omit [DecidableEq κ] in
theorem books_paymentLedgerInit (hnew : s.paymentLedger.lookup r = none)
    (hshape : issuer.amountShape a = true) :
    Wp (paymentLedgerInit issuer r a)
      (fun _ t => t.books = s.books.withPayment r a none ∧ Continues s t) (fun _ _ => False) s := by
  simp only [paymentLedgerInit, wp_bind, wp_get, Table.has, hnew, Option.isSome_none,
    Bool.false_eq_true, if_false, hshape, if_true, wp_modify]
  refine ⟨Books.ext ?_ rfl rfl, ⟨le_rfl, rfl, rfl⟩⟩
  funext r'
  change (s.paymentLedger.insert r a).lookup r' = _
  rw [Table.lookup_insert]
  exact (Function.update_apply ..).symm

omit [DecidableEq κ] in
theorem initPayment_books (hnew : s.paymentLedger.lookup r = none)
    (hshape : issuer.amountShape a = true) :
    Wp (initPayment issuer r a none)
      (fun _ t => t.books = s.books.withPayment r a none ∧ Continues s t) (fun _ _ => False) s := by
  simp only [initPayment, Option.isSome_none, Bool.false_eq_true, and_false, if_false]
  exact books_paymentLedgerInit hnew hshape

theorem initPayment_kept (hl : issuer.lib.Lawful) (h : s.books.WellFormed issuer)
    (hmode : issuer.recoverySetsState = .hasRecoverySets) (ha : issuer.Proper a)
    (hnew : s.paymentLedger.lookup r = none) (hp : s.purses.lookup p = some st) :
    Wp (initPayment issuer r a (some p))
      (fun _ t => t.books = s.books.withPayment r a (issuer.keptIn p a) ∧ Continues s t)
      (fun _ _ => False) s := by
  have hunkept : s.paymentRecoverySets.lookup r = none := h.recovery_eq_none hnew
  have hnotmem : r ∉ st.recoverySet := by
    intro hmem
    rw [show s.paymentRecoverySets.lookup r = some p from h.recovered r p st hp hmem] at hunkept
    cases hunkept
  obtain ⟨empty, hempty, -⟩ := AmountMath.isEmpty_valid hl ha.valid
  simp only [initPayment, hmode, reduceCtorEq, false_and, if_false, orThrow, hempty, wp_bind,
    wp_pure]
  cases empty with
  | true =>
    have hkept : issuer.keptIn p a = none := by simp [Issuer.keptIn, hempty]
    rw [hkept]
    simp only [not_true_eq_false, if_false]
    exact books_paymentLedgerInit hnew ha.shape
  | false =>
    have hkept : issuer.keptIn p a = some p := by simp [Issuer.keptIn, hmode, hempty]
    rw [hkept]
    simp only [Bool.false_eq_true, not_false_eq_true, if_true, wp_bind, addToRecoverySet, getPurse,
      wp_get, hp, orThrow, wp_pure, hnotmem, if_false, setPurse, wp_modify, Table.has, hunkept,
      Option.isSome_none]
    refine wp_mono (books_paymentLedgerInit hnew ha.shape) ?_ fun _ _ he => he
    rintro _ t ⟨hbooks, hcontinues⟩
    refine ⟨?_, ⟨hcontinues.1, hcontinues.2, hcontinues.3⟩⟩
    rw [hbooks]
    refine Books.ext rfl ?_ ?_
    · funext r'
      change (s.paymentRecoverySets.insert r p).lookup r' = _
      rw [Table.lookup_insert]
      exact (Function.update_apply ..).symm
    · funext q
      change (s.purses.insert p { st with recoverySet := st.recoverySet ++ [r] }).lookup q = _
      rw [Table.lookup_insert]
      dsimp only [Books.withPayment]
      by_cases hq : q = p
      · rw [if_pos hq, if_pos (congrArg some hq.symm), hq, show s.books.purse p = some st from hp]
        rfl
      · rw [if_neg hq, if_neg fun heq => hq (Option.some.inj heq).symm]
        rfl

/-- The amount moves from the balance into a new payment, or the books stay as they are.
That is so for every amount that the balance covers, if the purse can be used. -/
theorem withdraw_books (hl : issuer.lib.Lawful) (h : Consistent issuer s)
    (hp : s.purses.lookup p = some st) (amount : Specimen β κ) :
    Wp (withdraw issuer p amount)
      (fun r t => ∃ b a difference, amount = .amount b ∧ issuer.amountShape b = true ∧
        AmountMath.coerce issuer.lib issuer.brand b = some a ∧ issuer.usable st ∧
        AmountMath.subtract issuer.lib st.currentBalance a none = some difference ∧
        (∃ n, s.nextPayment ≤ n ∧ n < t.nextPayment ∧ r = .payment n) ∧
        t.books = (s.books.withBalance p difference).withPayment r a (issuer.keptIn p a) ∧
        Continues s t)
      (fun _ t => t.books = s.books ∧ Continues s t ∧ (issuer.usable st →
        ∀ b, amount = .amount b → issuer.Proper b → ¬ b.worth ≤ st.currentBalance.worth)) s := by
  simp only [withdraw, withdrawInternal, wp_bind]
  refine wp_mono (amountArg_spec amount) ?_ ?_
  rotate_left
  · rintro _ s ⟨rfl, hbad⟩
    refine ⟨rfl, .refl _, fun _ b hb hproper => ?_⟩
    exact absurd hproper.shape (by simp [hbad b hb])
  rintro b s ⟨rfl, rfl, hshape⟩
  refine wp_mono (maybeRecoverySet_books hp) ?_ ?_
  rotate_left
  · rintro _ s ⟨rfl, hunusable⟩
    exact ⟨rfl, .refl _, fun husable => absurd husable hunusable⟩
  rintro optRecoverySet s ⟨rfl, husable, rfl⟩
  cases hcoerce : AmountMath.coerce issuer.lib issuer.brand b with
  | none =>
    refine ⟨rfl, .refl _, ?_⟩
    rintro - _ ⟨⟩ hproper
    rw [AmountMath.coerce_valid hproper.valid] at hcoerce
    cases hcoerce
  | some a =>
    obtain ⟨ha, hworth⟩ := Issuer.proper_coerce hl hshape hcoerce
    have hnew : s.paymentLedger.lookup (.payment s.nextPayment) = none := h.payment_new le_rfl
    simp only [orThrow, makePayment, wp_bind, wp_get, wp_modify, wp_pure]
    refine wp_mono (decrement_books hl (h.wellFormed.balances p st hp) ha
      (s := { s with nextPayment := s.nextPayment + 1 }) hp) ?_ fun _ _ he => he.elim
    intro enough t ht
    cases enough with
    | false =>
      obtain ⟨rfl, hle⟩ := ht
      simp only [Bool.false_eq_true, not_false_eq_true, if_true]
      refine ⟨rfl, ⟨Nat.le_succ _, rfl, rfl⟩, ?_⟩
      rintro - _ ⟨⟩ -
      rw [← hworth]
      exact hle
    | true =>
      obtain ⟨difference, hsub, hbooks, hcontinues⟩ := ht
      obtain ⟨hproper, -⟩ := (h.wellFormed.balances p st hp).subtract hl ha hsub
      have hwell : t.books.WellFormed issuer := hbooks ▸ h.wellFormed.withBalance hproper p
      have hnew' : t.paymentLedger.lookup (.payment s.nextPayment) = none := by
        change t.books.payment _ = none
        rw [hbooks]
        exact hnew
      have hst : t.purses.lookup p = some { st with currentBalance := difference } := by
        change t.books.purse p = _
        rw [hbooks]
        dsimp only [Books.withBalance]
        rw [if_pos rfl]
        exact Option.map_eq_some_iff.mpr ⟨st, hp, rfl⟩
      have hinit : Wp (initPayment issuer (.payment s.nextPayment) a
          (if issuer.recoverySetsState = .hasRecoverySets then some p else none))
          (fun _ u => u.books = t.books.withPayment (.payment s.nextPayment) a
            (issuer.keptIn p a) ∧ Continues t u) (fun _ _ => False) t := by
        split
        case isTrue hmode => exact initPayment_kept hl hwell hmode ha hnew' hst
        case isFalse hmode =>
          have hkept : issuer.keptIn p a = none := by simp [Issuer.keptIn, hmode]
          rw [hkept]
          exact initPayment_books hnew' ha.shape
      simp only [not_true_eq_false, if_false, wp_bind]
      refine wp_orShutdown (wp_mono hinit ?_ fun _ _ he => he)
      rintro _ u ⟨hbooks', hcontinues'⟩
      have hall := hcontinues.trans hcontinues'
      refine ⟨b, a, difference, rfl, hshape, hcoerce, husable, hsub, ⟨s.nextPayment, le_rfl, ?_, rfl⟩,
        ?_, ⟨(Nat.le_succ _).trans hall.1, hall.2, hall.3⟩⟩
      · exact Nat.lt_of_succ_le hall.1
      · rw [hbooks', hbooks]
        rfl

end Steps

end AgoricSdk.ERTP
