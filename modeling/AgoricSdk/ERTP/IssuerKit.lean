import AgoricSdk.ERTP.LedgerRecovery
import AgoricSdk.ERTP.LedgerSystem

/-!
An issuer kit over its upgrades. The ledger survives an upgrade; whether recovery
sets are used is chosen again by each of them, from an option and from what was
stored when the kit was made.
-/

namespace AgoricSdk.ERTP

open StateProgram Books

/-- The purse that a call withdraws payments from. -/
def LedgerOp.source {β κ : Type} (s : Ledger β κ) : LedgerOp β κ → Option PurseID
  | .mintPayment _ => some s.mintRecoveryPurse
  | .withdraw purse _ => some purse
  | _ => none

structure IssuerKit (β κ : Type) where
  issuer : Issuer β κ
  ledger : Ledger β κ
  /-- `RECOVERY_SETS_STATE` in the baggage -/
  storedState : Option RecoverySetsOption
  /-- The purse that a payment was withdrawn from. No method reads it. -/
  withdrawnFrom : Remotable → Option PurseID

inductive IssuerKitAction (β κ : Type) where
  | call (op : LedgerOp β κ)
  | upgrade (optShutdownWithFailure : Option Bool) (recoverySetsOption : Option RecoverySetsOption)

variable {β κ : Type} [DecidableEq β] [DecidableEq κ]

def makeDurableIssuerKit (issuer : Issuer β κ) (recoverySetsOption : Option RecoverySetsOption) :
    IssuerKit β κ :=
  let recoverySetsState := recoverySetsOption.getD .hasRecoverySets
  let issuer := { issuer with recoverySetsState := recoverySetsState }
  { issuer := issuer
    ledger := preparePaymentLedger issuer
    storedState := some recoverySetsState
    withdrawnFrom := fun _ => none }

/-- The new option is not stored. -/
def upgradeIssuerKit (kit : IssuerKit β κ) (optShutdownWithFailure : Option Bool)
    (recoverySetsOption : Option RecoverySetsOption) : Option (IssuerKit β κ) :=
  let oldRecoverySetsState := kit.storedState.getD .hasRecoverySets
  if oldRecoverySetsState = .noRecoverySets ∧ recoverySetsOption = some .hasRecoverySets then none
  else
    let recoverySetsState := recoverySetsOption.getD oldRecoverySetsState
    some { kit with issuer := { kit.issuer with
      recoverySetsState := recoverySetsState
      optShutdownWithFailure := optShutdownWithFailure } }

/-- A call, which may bring payments into the ledger. -/
def IssuerKit.call (kit : IssuerKit β κ) (op : LedgerOp β κ) : IssuerKit β κ :=
  let ledger := finalState (op.run kit.issuer) kit.ledger
  { kit with
    ledger := ledger
    withdrawnFrom := fun r =>
      if ledger.paymentLedger.has r ∧ ¬ kit.ledger.paymentLedger.has r then op.source kit.ledger
      else kit.withdrawnFrom r }

/-- Anyone calls any method, on any purse that was made, and the kit may be upgraded. -/
def issuerKitSystem (issuer : Issuer β κ) :
    TransitionSystem (IssuerKit β κ) (IssuerKitAction β κ) where
  init kit := ∃ recoverySetsOption, kit = makeDurableIssuerKit issuer recoverySetsOption
  step kit
    | .call op => if op.purse.all kit.ledger.purses.has then some (kit.call op) else none
    | .upgrade optShutdownWithFailure recoverySetsOption =>
        upgradeIssuerKit kit optShutdownWithFailure recoverySetsOption

variable {issuer : Issuer β κ} {s t : Ledger β κ} {p : PurseID} {st : PurseState β κ}
  {r : Remotable} {a : Amount β κ}

/-! ## What a call does to the books -/

/-- A payment was withdrawn from the purse. -/
def Withdrew (issuer : Issuer β κ) (s : Ledger β κ) (p : PurseID) (t : Ledger β κ) : Prop :=
  ∃ r a difference, (∃ n, s.nextPayment ≤ n ∧ n < t.nextPayment ∧ r = .payment n) ∧
    issuer.Proper a ∧
    t.books = (s.books.withBalance p difference).withPayment r a (issuer.keptIn p a)

/-- After a call the ledger is consistent. Payments were only taken away, or one was
withdrawn from the source of the call. -/
structure Called (issuer : Issuer β κ) (s : Ledger β κ) (op : LedgerOp β κ) (t : Ledger β κ) :
    Prop where
  consistent : Consistent issuer t
  change : Removes s.books t.books ∨ ∃ p, op.source s = some p ∧ Withdrew issuer s p t

variable {op : LedgerOp β κ}

theorem Called.of_removes (h : Consistent issuer s) (hc : Continues s t)
    (hw : t.books.WellFormed issuer) (hremoves : Removes s.books t.books)
    (hpurses : ∀ q, (t.books.purse q).isSome = (s.books.purse q).isSome) : Called issuer s op t where
  consistent := h.of_books hc hw (fun r a hr => .inl ⟨a, (hremoves r a hr).1⟩) hpurses
  change := .inl hremoves

theorem Called.refl (h : Consistent issuer s) : Called issuer s op s :=
  .of_removes h (.refl s) h.wellFormed (.refl _) fun _ => rfl

theorem Called.of_books (h : Consistent issuer s) (hc : Continues s t) (hbooks : t.books = s.books) :
    Called issuer s op t := by
  refine .of_removes h hc (hbooks ▸ h.wellFormed) ?_ fun q => ?_
  · rw [hbooks]
    exact .refl _
  · rw [hbooks]

theorem Called.of_withoutPayment (h : Consistent issuer s) (hc : Continues s t)
    (hbooks : t.books = s.books.withoutPayment r) : Called issuer s op t := by
  refine .of_removes h hc (hbooks ▸ h.wellFormed.withoutPayment r) ?_ fun q => ?_
  · rw [hbooks]
    exact removes_withoutPayment s.books r
  · rw [hbooks]
    dsimp only [withoutPayment]
    rw [Option.isSome_map]

theorem deposit_called (hl : issuer.lib.Lawful) (h : Consistent issuer s)
    (hp : s.purses.lookup p = some st) (srcPayment : Specimen β κ)
    (optAmountShape : PatternArg β κ) :
    Wp (deposit issuer p srcPayment optAmountShape) (fun _ t => Called issuer s op t)
      (fun _ t => Called issuer s op t) s := by
  refine wp_mono (deposit_books hl h.wellFormed hp srcPayment optAmountShape) ?_ ?_
  · rintro a t ⟨r, sum, hchecked, hsum, hbooks, hc⟩
    have ha := h.wellFormed.payments r a (payment_of_checked hchecked)
    have hproper : issuer.Proper sum := by
      dsimp only [Books.sum] at hsum
      rw [show s.books.purse p = some st from hp] at hsum
      exact ((h.wellFormed.balances p st hp).add hl ha hsum).1
    refine .of_removes h hc (hbooks ▸ (h.wellFormed.withoutPayment r).withBalance hproper p) ?_
      fun q => ?_
    · rw [hbooks]
      exact (removes_withoutPayment s.books r).trans (removes_withBalance _ p sum)
    · rw [hbooks, isSome_withBalance]
      dsimp only [withoutPayment]
      rw [Option.isSome_map]
  · rintro _ t (⟨-, rfl⟩ | ⟨r, a, -, -, hbooks, hc⟩)
    · exact .refl h
    · exact .of_withoutPayment h hc hbooks

theorem burn_called (h : Consistent issuer s) (payment : Specimen β κ)
    (optAmountShape : PatternArg β κ) :
    Wp (burn issuer payment optAmountShape) (fun _ t => Called issuer s op t)
      (fun _ t => Called issuer s op t) s := by
  refine wp_mono (burn_books h.wellFormed payment optAmountShape) ?_ ?_
  · rintro a t ⟨r, -, hbooks, hc⟩
    exact .of_withoutPayment h hc hbooks
  · rintro _ t ⟨-, rfl⟩
    exact .refl h

theorem withdraw_called (hl : issuer.lib.Lawful) (h : Consistent issuer s)
    (hp : s.purses.lookup p = some st) (amount : Specimen β κ) :
    Wp (withdraw issuer p amount) (fun _ t => Called issuer s (.withdraw p amount) t)
      (fun _ t => Called issuer s (.withdraw p amount) t) s := by
  refine wp_mono (withdraw_books hl h hp amount) ?_ ?_
  · rintro r t ⟨b, a, difference, -, hshape, hcoerce, -, hsub, hr, hbooks, hc⟩
    obtain ⟨ha, -⟩ := Issuer.proper_coerce hl hshape hcoerce
    have hd := ((h.wellFormed.balances p st hp).subtract hl ha hsub).1
    exact ⟨h.withdrawn hl hp hd ha hr hbooks hc, .inr ⟨p, rfl, r, a, difference, hr, ha, hbooks⟩⟩
  · rintro _ t ⟨hbooks, hc, -⟩
    exact .of_books h hc hbooks

theorem recoverAll_called (hl : issuer.lib.Lawful) (h : Consistent issuer s)
    (hp : s.purses.lookup p = some st) :
    Wp (recoverAll issuer p) (fun _ t => Called issuer s op t)
      (fun _ t => Called issuer s op t) s := by
  refine wp_mono (recoverAll_books hl h.wellFormed hp) ?_ ?_
  · intro sum t ht
    split at ht
    case isTrue =>
      obtain ⟨ht, -⟩ := ht
      refine .of_removes h ht.continues ht.wellFormed (fun r a hr => ?_) fun q => ?_
      · rw [ht.payment] at hr
        rw [ht.recovery]
        split at hr
        case isTrue => cases hr
        case isFalse hmem => exact ⟨hr, if_neg hmem⟩
      · by_cases hq : q = p
        · obtain ⟨st', hst', -⟩ := ht.purse
          rw [hq, hst', show s.books.purse p = some st from hp]
          rfl
        · rw [ht.others q hq]
    case isFalse =>
      obtain ⟨rfl, -⟩ := ht
      exact .refl h
  · rintro _ t (⟨rfl, -⟩ | ⟨-, ht⟩)
    · exact .refl h
    · exact .of_removes h ht.continues ht.wellFormed ht.removes ht.purses

theorem mintPayment_called (hl : issuer.lib.Lawful) (hk : KeyEQReflexive issuer.lib)
    (h : Consistent issuer s) (newAmount : Specimen β κ) :
    Wp (mintPayment issuer newAmount) (fun _ t => Called issuer s (.mintPayment newAmount) t)
      (fun _ t => Called issuer s (.mintPayment newAmount) t) s := by
  obtain ⟨st, hp⟩ := Option.isSome_iff_exists.mp h.mintPurse
  have hbalance := h.wellFormed.balances _ st hp
  have hminted : ∀ t r a sum difference, issued issuer newAmount = some a →
      AmountMath.add issuer.lib st.currentBalance a none = some sum →
      AmountMath.subtract issuer.lib sum a none = some difference →
      (∃ n, s.nextPayment ≤ n ∧ n < t.nextPayment ∧ r = .payment n) →
      t.books = s.books.minted issuer s.mintRecoveryPurse r a difference → Continues s t →
      Called issuer s (.mintPayment newAmount) t := by
    intro t r a sum difference hissued hadd hsub hr hbooks hc
    have ha := proper_of_issued hl hissued
    have hd := ((hbalance.add hl ha hadd).1.subtract hl ha hsub).1
    exact ⟨h.withdrawn hl hp hd ha hr hbooks hc, .inr ⟨_, rfl, r, a, difference, hr, ha, hbooks⟩⟩
  refine wp_mono (mintPayment_books hl hk h hp newAmount) ?_ ?_
  · rintro r t ⟨a, sum, difference, hissued, -, hadd, hsub, -, hr, hbooks, hc⟩
    exact hminted t r a sum difference hissued hadd hsub hr hbooks hc
  · rintro _ t ⟨hc, ⟨hbooks, -⟩ | ⟨a, sum, hissued, hadd, ⟨-, hbooks⟩ |
      ⟨-, difference, n, hsub, -, hle, hlt, hbooks⟩⟩⟩
    · exact .of_books h hc hbooks
    · have hproper := (hbalance.add hl (proper_of_issued hl hissued) hadd).1
      refine .of_removes h hc (hbooks ▸ h.wellFormed.withBalance hproper _) ?_ fun q => ?_
      · rw [hbooks]
        exact removes_withBalance s.books _ sum
      · rw [hbooks, isSome_withBalance]
    · exact hminted t _ a sum difference hissued hadd hsub ⟨n, hle, hlt, rfl⟩ hbooks hc

theorem makeEmptyPurse_called (hl : issuer.lib.Lawful) (h : Consistent issuer s) :
    Wp (makeEmptyPurse issuer) (fun _ t => Called issuer s op t) (fun _ _ => False) s := by
  have hempty := Issuer.proper_makeEmpty hl
  have hnew : s.purses.lookup s.nextPurse = none := by
    cases hq : s.purses.lookup s.nextPurse with
    | none => rfl
    | some st => exact absurd (h.pursesNumbered _ (Table.has_of_lookup hq)) (Nat.lt_irrefl _)
  simp only [makeEmptyPurse, hempty.shape, if_true, wp_bind, wp_get, wp_modify, wp_pure]
  have hlookup : ∀ q st, (s.purses.insert s.nextPurse
      { currentBalance := AmountMath.makeEmpty issuer.lib issuer.brand issuer.assetKind,
        recoverySet := [] }).lookup q = some st →
      (q = s.nextPurse ∧
        st.currentBalance = AmountMath.makeEmpty issuer.lib issuer.brand issuer.assetKind ∧
        st.recoverySet = []) ∨ s.purses.lookup q = some st := by
    intro q st hq
    rw [Table.lookup_insert] at hq
    split at hq
    case isTrue heq =>
      cases hq
      exact .inl ⟨heq, rfl, rfl⟩
    case isFalse => exact .inr hq
  have hkept : ∀ q st, s.purses.lookup q = some st → (s.purses.insert s.nextPurse
      { currentBalance := AmountMath.makeEmpty issuer.lib issuer.brand issuer.assetKind,
        recoverySet := [] }).lookup q = some st := by
    intro q st hq
    rw [Table.lookup_insert, if_neg]
    · exact hq
    · rintro rfl
      rw [hnew] at hq
      cases hq
  have hw := h.wellFormed
  refine ⟨⟨⟨?_, hw.payments, ?_, ?_, ?_⟩, h.numbered, ?_, ?_⟩, .inl fun r a hr => ⟨hr, rfl⟩⟩
  · intro q st hq
    rcases hlookup q st hq with ⟨-, hb, -⟩ | hq
    · exact hb ▸ hempty
    · exact hw.balances q st hq
  · intro r q hr
    obtain ⟨a, st, ha, hworth, hst, hmem⟩ := hw.recoverable r q hr
    exact ⟨a, st, ha, hworth, hkept q st hst, hmem⟩
  · intro r q st hq hmem
    rcases hlookup q st hq with ⟨-, -, hnil⟩ | hq
    · rw [hnil] at hmem
      cases hmem
    · exact hw.recovered r q st hq hmem
  · intro q st hq
    rcases hlookup q st hq with ⟨-, -, hnil⟩ | hq
    · exact hnil ▸ List.nodup_nil
    · exact hw.nodup q st hq
  · intro q hq
    obtain ⟨st, hst⟩ := Option.isSome_iff_exists.mp hq
    rcases hlookup q st hst with ⟨rfl, -⟩ | hst
    · exact Nat.lt_succ_self _
    · exact (h.pursesNumbered q (Table.has_of_lookup hst)).trans (Nat.lt_succ_self _)
  · obtain ⟨st, hst⟩ := Option.isSome_iff_exists.mp h.mintPurse
    exact Table.has_of_lookup (hkept _ st hst)

theorem run_called (hl : issuer.lib.Lawful) (hk : KeyEQReflexive issuer.lib)
    (h : Consistent issuer s) (op : LedgerOp β κ) (hp : op.purse.all s.purses.has = true) :
    Called issuer s op (finalState (op.run issuer) s) := by
  apply finalState_of_wp (P := Called issuer s op)
  cases op with
  | mintPayment newAmount =>
    simp only [LedgerOp.run, wp_map]
    exact mintPayment_called hl hk h newAmount
  | deposit purse srcPayment optAmountShape =>
    obtain ⟨st, hst⟩ := Option.isSome_iff_exists.mp hp
    simp only [LedgerOp.run, wp_map]
    exact deposit_called hl h hst srcPayment optAmountShape
  | receive purse srcPayment optAmountShape =>
    obtain ⟨st, hst⟩ := Option.isSome_iff_exists.mp hp
    simp only [LedgerOp.run, wp_map, receive]
    exact deposit_called hl h hst srcPayment optAmountShape
  | withdraw purse amount =>
    obtain ⟨st, hst⟩ := Option.isSome_iff_exists.mp hp
    simp only [LedgerOp.run, wp_map]
    exact withdraw_called hl h hst amount
  | burn payment optAmountShape =>
    simp only [LedgerOp.run, wp_map]
    exact burn_called h payment optAmountShape
  | recoverAll purse =>
    obtain ⟨st, hst⟩ := Option.isSome_iff_exists.mp hp
    simp only [LedgerOp.run, wp_map]
    exact recoverAll_called hl h hst
  | makeEmptyPurse =>
    simp only [LedgerOp.run, wp_map]
    exact wp_mono (makeEmptyPurse_called hl h) (fun _ _ ht => ht) fun _ _ he => he.elim

/-! ## Reachable kits -/

theorem Consistent.reconfigure (h : Consistent issuer s) (recoverySetsState : RecoverySetsOption)
    (optShutdownWithFailure : Option Bool) :
    Consistent { issuer with
      recoverySetsState := recoverySetsState
      optShutdownWithFailure := optShutdownWithFailure } s where
  wellFormed :=
    { balances := fun p st hp => ⟨(h.wellFormed.balances p st hp).1, (h.wellFormed.balances p st hp).2⟩
      payments := fun r a hr => ⟨(h.wellFormed.payments r a hr).1, (h.wellFormed.payments r a hr).2⟩
      recoverable := h.wellFormed.recoverable
      recovered := h.wellFormed.recovered
      nodup := h.wellFormed.nodup }
  numbered := h.numbered
  pursesNumbered := h.pursesNumbered
  mintPurse := h.mintPurse

theorem paymentRecoverySets_prepare (hl : issuer.lib.Lawful) :
    (preparePaymentLedger issuer).paymentRecoverySets = ∅ := by
  rw [preparePaymentLedger_eq hl]
  rfl

theorem consistent_prepare (hl : issuer.lib.Lawful) :
    Consistent issuer (preparePaymentLedger issuer) where
  wellFormed :=
    { balances := (holds_prepare hl).balances
      payments := (holds_prepare hl).payments
      recoverable := fun r p hr => by
        dsimp only [Ledger.books] at hr
        rw [paymentRecoverySets_prepare hl] at hr
        cases hr
      recovered := (holds_prepare hl).recovered
      nodup := (holds_prepare hl).nodup }
  numbered r hr := (holds_prepare hl).numbered r (.inl hr)
  pursesNumbered := (holds_prepare hl).pursesNumbered
  mintPurse := (holds_prepare hl).mintPurse

namespace IssuerKit

variable {kit kit' : IssuerKit β κ}

omit [DecidableEq β] [DecidableEq κ] in
theorem eq_of_upgrade {optShutdownWithFailure : Option Bool}
    {recoverySetsOption : Option RecoverySetsOption}
    (h : upgradeIssuerKit kit optShutdownWithFailure recoverySetsOption = some kit') :
    kit' = { kit with issuer := { kit.issuer with
      recoverySetsState := recoverySetsOption.getD (kit.storedState.getD .hasRecoverySets)
      optShutdownWithFailure := optShutdownWithFailure } } := by
  simp only [upgradeIssuerKit] at h
  split at h
  case isTrue => cases h
  case isFalse => exact (Option.some.inj h).symm

omit [DecidableEq κ] in
theorem withdrawnFrom_of_live (op : LedgerOp β κ) (hr : kit.ledger.books.payment r = some a) :
    (kit.call op).withdrawnFrom r = kit.withdrawnFrom r := by
  have hlive : kit.ledger.paymentLedger.has r = true := Table.has_of_lookup hr
  dsimp only [call]
  rw [if_neg fun h => h.2 hlive]

omit [DecidableEq κ] in
theorem withdrawnFrom_of_new (op : LedgerOp β κ) (hr : kit.ledger.books.payment r = none)
    (hr' : (kit.call op).ledger.books.payment r = some a) :
    (kit.call op).withdrawnFrom r = op.source kit.ledger := by
  have hnew : ¬ kit.ledger.paymentLedger.has r = true := by
    rw [Table.has, show kit.ledger.paymentLedger.lookup r = none from hr]
    exact Bool.false_ne_true
  have hlive : (finalState (op.run kit.issuer) kit.ledger).paymentLedger.has r = true :=
    Table.has_of_lookup hr'
  dsimp only [call]
  rw [if_pos ⟨hlive, hnew⟩]

/-- What is kept by every call and every upgrade. A recovery set only contains payments
that were withdrawn from its purse. -/
structure Kept (issuer : Issuer β κ) (kit : IssuerKit β κ) : Prop where
  lib : kit.issuer.lib = issuer.lib
  consistent : Consistent kit.issuer kit.ledger
  origin : ∀ r p, kit.ledger.books.recovery r = some p → kit.withdrawnFrom r = some p

/-- Every payment that is not empty is in the recovery set of the purse that it was
withdrawn from. -/
def Recoverable (kit : IssuerKit β κ) : Prop :=
  kit.issuer.recoverySetsState = .hasRecoverySets → ∀ r a p, kit.ledger.books.payment r = some a →
    a.worth ≠ 0 → kit.withdrawnFrom r = some p → kit.ledger.books.recovery r = some p

/-- The payment of a withdrawal is new, and enters the recovery set of the purse if sets are
used and it is not empty. The other payments stay where they are. -/
theorem withdrew_cases (h : Consistent issuer s) (hw : Withdrew issuer s p t) :
    ∃ r a, s.books.payment r = none ∧ t.books.payment r = some a ∧ issuer.Proper a ∧
      t.books.recovery r = issuer.keptIn p a ∧
      ∀ r', r' ≠ r → t.books.payment r' = s.books.payment r' ∧
        t.books.recovery r' = s.books.recovery r' := by
  obtain ⟨r, a, difference, ⟨n, hle, -, rfl⟩, ha, hbooks⟩ := hw
  have hnew := h.payment_new hle
  refine ⟨_, a, hnew, ?_, ha, ?_, fun r' hne => ⟨?_, ?_⟩⟩
  · rw [hbooks]
    exact Function.update_self ..
  · rw [hbooks]
    dsimp only [withPayment, withBalance]
    cases hkept : issuer.keptIn p a with
    | none => exact h.wellFormed.recovery_eq_none hnew
    | some q => exact Function.update_self ..
  · rw [hbooks]
    exact Function.update_of_ne hne ..
  · rw [hbooks]
    dsimp only [withPayment, withBalance]
    split
    · exact Function.update_of_ne hne ..
    · rfl

theorem Kept.step (hl : issuer.lib.Lawful) (hk : KeyEQReflexive issuer.lib)
    (h : kit.Kept issuer) {action : IssuerKitAction β κ}
    (hstep : (issuerKitSystem issuer).step kit action = some kit') : kit'.Kept issuer := by
  cases action with
  | upgrade optShutdownWithFailure recoverySetsOption =>
    cases eq_of_upgrade hstep
    exact ⟨h.lib, h.consistent.reconfigure _ _, h.origin⟩
  | call op =>
    simp only [issuerKitSystem] at hstep
    split at hstep
    case isFalse => cases hstep
    case isTrue hp =>
      cases hstep
      have hcalled : Called kit.issuer kit.ledger op (kit.call op).ledger :=
        run_called (h.lib.symm ▸ hl) (h.lib.symm ▸ hk) h.consistent op hp
      refine ⟨h.lib, hcalled.consistent, fun r p hr => ?_⟩
      obtain ⟨a, -, hlive, -⟩ := hcalled.consistent.wellFormed.recoverable r p hr
      rcases hcalled.change with hremoves | ⟨q, hq, hw⟩
      · obtain ⟨hlive', hkept⟩ := hremoves r a hlive
        rw [withdrawnFrom_of_live op hlive']
        exact h.origin r p (hkept.symm.trans hr)
      · obtain ⟨r', a', hnew, hlive', ha', hkept, hothers⟩ := withdrew_cases h.consistent hw
        by_cases heq : r = r'
        · subst heq
          rw [hkept] at hr
          obtain ⟨-, rfl, -⟩ := Issuer.keptIn_eq_some (h.lib.symm ▸ hl) ha' hr
          exact (withdrawnFrom_of_new op hnew hlive').trans hq
        · obtain ⟨hpayment, hrecovery⟩ := hothers r heq
          rw [withdrawnFrom_of_live op (hpayment.symm.trans hlive)]
          exact h.origin r p (hrecovery.symm.trans hr)

theorem kept_of_reachable (hl : issuer.lib.Lawful) (hk : KeyEQReflexive issuer.lib)
    {ok : IssuerKit β κ → IssuerKitAction β κ → Prop}
    (h : (issuerKitSystem issuer).Reachable ok kit) : kit.Kept issuer := by
  refine h.invariant ?_ fun _ _ _ hs _ hstep => hs.step hl hk hstep
  rintro _ ⟨recoverySetsOption, rfl⟩
  refine ⟨rfl, consistent_prepare hl, fun r p hr => ?_⟩
  have hnone : (makeDurableIssuerKit issuer recoverySetsOption).ledger.paymentRecoverySets = ∅ :=
    paymentRecoverySets_prepare hl
  have hr' : (∅ : Table Remotable PurseID).lookup r = some p := hnone ▸ hr
  cases hr'

/-- No upgrade returns from noRecoverySets to hasRecoverySets. -/
def KeepsOption (kit : IssuerKit β κ) : IssuerKitAction β κ → Prop
  | .upgrade _ recoverySetsOption => kit.issuer.recoverySetsState = .noRecoverySets →
      recoverySetsOption.getD (kit.storedState.getD .hasRecoverySets) = .noRecoverySets
  | .call _ => True

instance decidableKeepsOption (kit : IssuerKit β κ) :
    ∀ action, Decidable (KeepsOption kit action)
  | .upgrade _ recoverySetsOption =>
      inferInstanceAs (Decidable (kit.issuer.recoverySetsState = .noRecoverySets →
        recoverySetsOption.getD (kit.storedState.getD .hasRecoverySets) = .noRecoverySets))
  | .call _ => inferInstanceAs (Decidable True)

theorem Recoverable.step (hl : issuer.lib.Lawful) (hk : KeyEQReflexive issuer.lib)
    (h : kit.Kept issuer) (hr : kit.Recoverable) {action : IssuerKitAction β κ}
    (hkeeps : KeepsOption kit action)
    (hstep : (issuerKitSystem issuer).step kit action = some kit') : kit'.Recoverable := by
  cases action with
  | upgrade optShutdownWithFailure recoverySetsOption =>
    cases eq_of_upgrade hstep
    intro hmode
    apply hr
    cases hold : kit.issuer.recoverySetsState with
    | hasRecoverySets => rfl
    | noRecoverySets =>
      have hno := hkeeps hold
      rw [show recoverySetsOption.getD (kit.storedState.getD .hasRecoverySets) =
        RecoverySetsOption.hasRecoverySets from hmode] at hno
      cases hno
  | call op =>
    simp only [issuerKitSystem] at hstep
    split at hstep
    case isFalse => cases hstep
    case isTrue hp =>
      cases hstep
      have hcalled : Called kit.issuer kit.ledger op (kit.call op).ledger :=
        run_called (h.lib.symm ▸ hl) (h.lib.symm ▸ hk) h.consistent op hp
      intro hmode r a p hlive hworth hfrom
      rcases hcalled.change with hremoves | ⟨q, hq, hw⟩
      · obtain ⟨hlive', hkept⟩ := hremoves r a hlive
        rw [withdrawnFrom_of_live op hlive'] at hfrom
        exact hkept.trans (hr hmode r a p hlive' hworth hfrom)
      · obtain ⟨r', a', hnew, hlive', ha', hkept, hothers⟩ := withdrew_cases h.consistent hw
        by_cases heq : r = r'
        · subst heq
          rw [hlive] at hlive'
          cases hlive'
          rw [withdrawnFrom_of_new op hnew hlive, hq] at hfrom
          cases hfrom
          exact hkept.trans (Issuer.keptIn_of_worth (h.lib.symm ▸ hl) hmode ha' hworth)
        · obtain ⟨hpayment, hrecovery⟩ := hothers r heq
          have hlive'' := hpayment.symm.trans hlive
          rw [withdrawnFrom_of_live op hlive''] at hfrom
          exact hrecovery.trans (hr hmode r a p hlive'' hworth hfrom)

theorem recoverable_of_reachable (hl : issuer.lib.Lawful) (hk : KeyEQReflexive issuer.lib)
    (h : (issuerKitSystem issuer).Reachable KeepsOption kit) : kit.Recoverable := by
  have hboth : kit.Kept issuer ∧ kit.Recoverable := by
    refine h.invariant (I := fun kit => kit.Kept issuer ∧ kit.Recoverable) ?_
      fun _ _ _ hs hok hstep => ⟨hs.1.step hl hk hstep, hs.2.step hl hk hs.1 hok hstep⟩
    intro kit hinit
    have hreach : (issuerKitSystem issuer).Reachable KeepsOption kit := .init hinit
    refine ⟨kept_of_reachable hl hk hreach, ?_⟩
    obtain ⟨recoverySetsOption, rfl⟩ := hinit
    intro _ r a p _ _ hfrom
    cases hfrom
  exact hboth.2

end IssuerKit

end AgoricSdk.ERTP
