import AgoricSdk.ERTP.LedgerConservation
import AgoricSdk.ERTP.NumberStore

/-!
Runs of a payment ledger. Every method keeps the invariant, whatever its
arguments, as long as unique assets are minted only while they are not
outstanding. Conservation, the single use of payments and the steady balance of
the mint recovery purse follow for every run.
-/

namespace AgoricSdk.ERTP

open StateProgram

variable {β κ : Type} [DecidableEq β] [DecidableEq κ] {issuer : Issuer β κ} {s t : Ledger β κ}
  {p : PurseID} {a : Amount β κ}

section Methods

variable (hl : issuer.lib.Lawful)

theorem getCurrentAmount_spec (h : Holds issuer 0 [] s) (hp : s.purses.has p = true) :
    Wp (getCurrentAmount issuer p) (fun _ t => t = s) (fun _ _ => False) s := by
  obtain ⟨st, hst⟩ := Option.isSome_iff_exists.mp hp
  simp only [getCurrentAmount, getAmount, getPurse, wp_bind, wp_get, hst, orThrow, wp_pure]
  exact wp_mono (returnsAmount_spec (h.balances p st hst).shape) (fun _ _ ht => ht.2)
    fun _ _ he => he

theorem burn_spec (h : Holds issuer 0 [] s) (payment : Specimen β κ)
    (optAmountShape : PatternArg β κ) :
    Wp (burn issuer payment optAmountShape) (fun _ t => Holds issuer 0 [] t ∧ KeepsPurses s t)
      (fun _ t => t = s) s := by
  simp only [burn, wp_bind]
  refine wp_mono (paymentArg_spec payment) ?_ fun _ _ he => he
  rintro r s ⟨rfl, rfl⟩
  refine wp_mono (patternArg_spec optAmountShape) ?_ fun _ _ he => he
  rintro pattern s rfl
  refine wp_mono (getLivePayment_spec r) ?_ fun _ _ he => he
  rintro a s ⟨rfl, hr⟩
  refine wp_mono (assertAmountConsistent_spec pattern) ?_ fun _ _ he => he
  rintro _ s rfl
  have hburned : Wp (do deletePayment r; noteEvent (.burned r a))
      (fun _ t => Holds issuer 0 [] t ∧ KeepsPurses s t) (fun _ _ => False) s := by
    simp only [wp_bind]
    refine wp_mono (deletePayment_spec h hr) ?_ fun _ _ he => he
    rintro _ t ⟨ht, hkeep, -, -⟩
    rw [zero_add] at ht
    exact ⟨ht.noteConsumed rfl rfl rfl, hkeep⟩
  refine wp_mono (wp_orShutdown hburned) ?_ fun _ _ he => he
  intro _ t ht
  refine wp_mono (returnsAmount_spec (h.payments r a hr).shape) ?_ fun _ _ he => he.elim
  rintro _ t ⟨-, rfl⟩
  exact ht

include hl

/-- Each turn of the loop deposits one payment whole; a turn that throws leaves
the deposits of the turns before it. -/
theorem recoverPayments_spec (payments : List Remotable) (h : Holds issuer 0 [] s)
    (hp : s.purses.has p = true) (ha : issuer.Proper a) :
    Wp (recoverPayments issuer p payments a)
      (fun sum t => Holds issuer 0 [] t ∧ KeepsPurses s t ∧ issuer.Proper sum)
      (fun _ t => Holds issuer 0 [] t ∧ KeepsPurses s t) s := by
  induction payments generalizing s a with
  | nil => exact ⟨h, ⟨rfl, fun _ => rfl⟩, ha⟩
  | cons payment payments ih =>
    simp only [recoverPayments, wp_bind]
    refine wp_mono (deposit_spec hl h hp (.remotable payment) .absent) ?_ ?_
    · rintro delta t ⟨ht, hkeep, hdelta, -⟩
      rw [AmountMath.add_brand ha.valid hdelta.valid]
      cases hadd : AmountMath.add issuer.lib a delta none with
      | none => exact ⟨ht, hkeep⟩
      | some sum =>
        simp only [orThrow, wp_pure]
        refine wp_mono (ih ht ((hkeep.2 p).trans hp) (ha.add hl hdelta hadd).1) ?_ ?_
        · rintro _ u ⟨hu, hkeep', hsum⟩
          exact ⟨hu, hkeep.trans hkeep', hsum⟩
        · rintro _ u ⟨hu, hkeep'⟩
          exact ⟨hu, hkeep.trans hkeep'⟩
    · rintro _ t rfl
      exact ⟨h, rfl, fun _ => rfl⟩

theorem recoverAll_spec (h : Holds issuer 0 [] s) (hp : s.purses.has p = true) :
    Wp (recoverAll issuer p) (fun _ t => Holds issuer 0 [] t ∧ KeepsPurses s t)
      (fun _ t => Holds issuer 0 [] t ∧ KeepsPurses s t) s := by
  have hempty := Issuer.proper_makeEmpty hl
  simp only [recoverAll, wp_bind]
  refine wp_mono (maybeRecoverySet_spec h hp) ?_ fun _ _ he => he.elim
  rintro optRecoverySet s ⟨rfl, hset⟩
  cases optRecoverySet with
  | none =>
    refine wp_mono (returnsAmount_spec hempty.shape) ?_ fun _ _ he => he.elim
    rintro _ _ ⟨-, rfl⟩
    exact ⟨h, rfl, fun _ => rfl⟩
  | some q =>
    obtain ⟨st, hst⟩ := Option.isSome_iff_exists.mp (hset q rfl).2
    simp only [wp_bind, getPurse, wp_get, hst, orThrow, wp_pure]
    refine wp_mono (recoverPayments_spec hl st.recoverySet h hp hempty) ?_ fun _ _ he => he
    rintro sum t ⟨ht, hkeep, hsum⟩
    obtain ⟨st', hst'⟩ := Option.isSome_iff_exists.mp ((hkeep.2 q).trans (hset q rfl).2)
    simp only [hst', wp_pure]
    refine wp_ite (fun _ => ⟨ht, hkeep⟩) fun _ => ?_
    refine wp_mono (returnsAmount_spec hsum.shape) ?_ fun _ _ he => he.elim
    rintro _ _ ⟨-, rfl⟩
    exact ⟨ht, hkeep⟩

theorem makeEmptyPurse_spec (h : Holds issuer 0 [] s) :
    Wp (makeEmptyPurse issuer) (fun _ t => Holds issuer 0 [] t ∧
      t.mintRecoveryPurse = s.mintRecoveryPurse) (fun _ _ => False) s := by
  have hempty := Issuer.proper_makeEmpty hl
  have hzero := (AmountMath.makeEmpty_valid hl issuer.brand issuer.assetKind).2
  have hnew : s.purses.lookup s.nextPurse = none := by
    cases hq : s.purses.lookup s.nextPurse with
    | none => rfl
    | some st => exact absurd (h.pursesNumbered _ (by simp [Table.has, hq])) (Nat.lt_irrefl _)
  simp only [makeEmptyPurse, hempty.shape, if_true, wp_bind, wp_get, wp_modify, wp_pure, and_true]
  have hlookup : ∀ q st, (s.purses.insert s.nextPurse
      { currentBalance := AmountMath.makeEmpty issuer.lib issuer.brand issuer.assetKind,
        recoverySet := [] }).lookup q = some st →
      (st.currentBalance = AmountMath.makeEmpty issuer.lib issuer.brand issuer.assetKind ∧
        st.recoverySet = []) ∨ s.purses.lookup q = some st := by
    intro q st hq
    rw [Table.lookup_insert] at hq
    split at hq
    case isTrue =>
      cases hq
      exact .inl ⟨rfl, rfl⟩
    case isFalse => exact .inr hq
  have hbalances : ∀ c, (s.purses.insert s.nextPurse
      { currentBalance := AmountMath.makeEmpty issuer.lib issuer.brand issuer.assetKind,
        recoverySet := [] }).sumOver (fun _ st => st.currentBalance.worth c) = s.balances c := by
    intro c
    rw [Table.sumOver_insert_none hnew, hzero]
    rfl
  constructor
  case balances =>
    intro q st hq
    rcases hlookup q st hq with ⟨hb, -⟩ | hq
    · rw [hb]
      exact hempty
    · exact h.balances q st hq
  case payments => exact h.payments
  case numbered => exact h.numbered
  case pursesNumbered =>
    intro q hq
    simp only [Table.has, Table.lookup_insert] at hq
    split at hq
    case isTrue hqn => exact hqn ▸ Nat.lt_succ_self _
    case isFalse => exact Nat.lt_succ_of_lt (h.pursesNumbered q hq)
  case mintPurse =>
    have hm := h.mintPurse
    simp only [Table.has, Table.lookup_insert] at hm ⊢
    split
    case isTrue => rfl
    case isFalse => exact hm
  case recoverable =>
    intro r q hq
    obtain ⟨hlive, st, hst, hmem⟩ := h.recoverable r q hq
    refine ⟨hlive, st, ?_, hmem⟩
    have hne : q ≠ s.nextPurse := by
      rintro rfl
      rw [hnew] at hst
      cases hst
    rw [Table.lookup_insert, if_neg hne]
    exact hst
  case recovered =>
    intro r q st hq hr
    rcases hlookup q st hq with ⟨-, hs⟩ | hq
    · rw [hs] at hr
      cases hr
    · exact h.recovered r q st hq hr
  case nodup =>
    intro q st hq
    rcases hlookup q st hq with ⟨-, hs⟩ | hq
    · rw [hs]
      exact List.nodup_nil
    · exact h.nodup q st hq
  case noSets =>
    intro hno q st hq
    rcases hlookup q st hq with ⟨-, hs⟩ | hq
    · exact hs
    · exact h.noSets hno q st hq
  case consumed_nodup => exact h.consumed_nodup
  case consumed_dead => exact h.consumed_dead
  case conserved =>
    intro c
    have h₁ := h.conserved c
    have h₂ := hbalances c
    change Table.sumOver _ (s.purses.insert _ _) + s.payments c + s.burned c + 0 = s.minted c
    rw [h₂]
    exact h₁
  case single =>
    intro hu c
    have h₁ := h.single hu c
    have h₂ := hbalances c
    change Table.sumOver _ (s.purses.insert _ _) + s.payments c + 0 ≤ 1
    rw [h₂]
    exact h₁
  case running => exact h.running

theorem mintPayment_spec (h : Holds issuer 0 [] s) (newAmount : Specimen β κ)
    (hfresh : issuer.assetKind.Unique → ∀ a, issued issuer newAmount = some a →
      ∀ c, s.balances c + s.payments c + a.worth c ≤ 1) :
    Wp (mintPayment issuer newAmount)
      (fun _ t => Holds issuer 0 [] t ∧ KeepsPurses s t ∧
        t.balanceOf s.mintRecoveryPurse = s.balanceOf s.mintRecoveryPurse)
      (fun _ t => Holds issuer 0 [] t ∧ KeepsPurses s t ∧
        t.balanceOf s.mintRecoveryPurse = s.balanceOf s.mintRecoveryPurse) s := by
  simp only [mintPayment, wp_bind]
  refine wp_mono (amountArg_spec newAmount) ?_ ?_
  rotate_left
  · rintro _ s ⟨rfl, -⟩
    exact ⟨h, ⟨rfl, fun _ => rfl⟩, rfl⟩
  rintro b s ⟨rfl, rfl, hshape⟩
  cases hcoerce : AmountMath.coerce issuer.lib issuer.brand b with
  | none => exact ⟨h, ⟨rfl, fun _ => rfl⟩, rfl⟩
  | some a =>
    obtain ⟨ha, -⟩ := Issuer.proper_coerce hl hshape hcoerce
    have hissued : issued issuer (.amount b) = some a := by
      simp [issued, hshape, hcoerce, ha.shape, Option.filter]
    simp only [orThrow, wp_pure, ha.shape, not_true_eq_false, if_false, wp_bind]
    refine wp_mono (makePayment_spec h) ?_ fun _ _ he => he.elim
    rintro r s₁ ⟨hr, rfl, h₁⟩
    obtain ⟨hnew, hunused⟩ := fresh_of_makePayment h
    -- the assets come into being
    simp only [noteEvent, wp_modify]
    have h₂ := h₁.noteMinted fun hu c => hfresh hu a hissued c
    have hconsumed := consumed_noteEvent s (.minted a)
    rw [show (AssetEvent.minted a : AssetEvent β κ).consumed = none from rfl, Option.toList_none,
      List.append_nil] at hconsumed
    refine wp_mono (initPayment_spec hl h₂ ha (hr ▸ hnew) ?_ ⟨s.nextPayment, Nat.lt_succ_self _, hr⟩
      fun _ h => by cases h) ?_ fun _ _ he => he.elim
    · rw [hr]
      exact hconsumed ▸ hunused
    rintro _ s₃ ⟨h₃, hkeep₃, hbal₃, -, hpay₃⟩
    have hmint₃ : s₃.mintRecoveryPurse = s.mintRecoveryPurse := hkeep₃.1
    have hbal₃' : s₃.balanceOf s.mintRecoveryPurse = s.balanceOf s.mintRecoveryPurse :=
      congrFun hbal₃ _
    have hkeep₃' : KeepsPurses s s₃ := hkeep₃
    have hp₃ : s₃.purses.has s.mintRecoveryPurse = true := hmint₃ ▸ h₃.mintPurse
    simp only [wp_get, hmint₃]
    refine wp_mono (getCurrentAmount_spec h₃ hp₃) ?_ fun _ _ he => he.elim
    rintro before s₃ rfl
    -- they go into the mint recovery purse
    refine wp_mono (deposit_spec hl h₃ hp₃ _ _) ?_ ?_
    rotate_left
    · rintro _ s₃ rfl
      exact ⟨h₃, hkeep₃', hbal₃'⟩
    rintro delta s₄ ⟨h₄, hkeep₄, -, _, ⟨rfl⟩, hlive, hbal₄⟩
    rw [hpay₃, Table.lookup_insert, if_pos rfl] at hlive
    cases hlive
    have hkeep₄' := hkeep₃'.trans hkeep₄
    have hp₄ : s₄.purses.has s.mintRecoveryPurse = true := (hkeep₄.2 _).trans hp₃
    -- and out of it again
    refine wp_mono (withdraw_spec hl h₄ hp₄ (.amount a)) ?_ ?_
    · rintro payment s₅ ⟨h₅, hkeep₅, b', -, hbal₅, hworth, -⟩
      have hp₅ : s₅.purses.has s.mintRecoveryPurse = true := (hkeep₅.2 _).trans hp₄
      have hbal : s₅.balanceOf s.mintRecoveryPurse = s.balanceOf s.mintRecoveryPurse := by
        rw [hworth a rfl, hbal₄, hbal₃'] at hbal₅
        exact add_right_cancel hbal₅
      refine wp_mono (getCurrentAmount_spec h₅ hp₅) ?_ fun _ _ he => he.elim
      rintro after s₅ rfl
      exact wp_ite (fun _ => ⟨h₅, hkeep₄'.trans hkeep₅, hbal⟩)
        fun _ => ⟨h₅, hkeep₄'.trans hkeep₅, hbal⟩
    · rintro _ s₅ ⟨-, -, -, henough⟩
      refine absurd ?_ (henough a rfl ha)
      rw [hbal₄]
      exact fun c => Nat.le_add_left ..

end Methods

/-! ## Runs -/

/-- A mint of unique assets issues no element that some purse or live payment
still holds. The other kinds may be minted at any time. -/
def MintsFresh (issuer : Issuer β κ) (s : Ledger β κ) : LedgerOp β κ → Prop
  | .mintPayment newAmount => issuer.assetKind.Unique → ∀ a, issued issuer newAmount = some a →
      ∀ k, 0 < a.worth (some k) → s.balances (some k) + s.payments (some k) = 0
  | _ => True

section Runs

variable (hl : issuer.lib.Lawful)

include hl

theorem preparePaymentLedger_eq : preparePaymentLedger issuer = { (emptyLedger : Ledger β κ) with
    nextPurse := 1
    purses := (∅ : Table PurseID (PurseState β κ)).insert 0
      { currentBalance := AmountMath.makeEmpty issuer.lib issuer.brand issuer.assetKind,
        recoverySet := [] } } := by
  have hempty := Issuer.proper_makeEmpty hl
  have hrun : Wp (makeEmptyPurse issuer) (fun _ t => t = { (emptyLedger : Ledger β κ) with
      nextPurse := 1
      purses := (∅ : Table PurseID (PurseState β κ)).insert 0
        { currentBalance := AmountMath.makeEmpty issuer.lib issuer.brand issuer.assetKind,
          recoverySet := [] } }) (fun _ _ => False) (emptyLedger : Ledger β κ) := by
    simp [makeEmptyPurse, hempty.shape, emptyLedger]
  exact finalState_of_wp (wp_mono hrun (fun _ _ ht => ht) fun _ _ he => he.elim)

theorem holds_prepare : Holds issuer 0 [] (preparePaymentLedger issuer) := by
  have hempty := Issuer.proper_makeEmpty hl
  have hzero := (AmountMath.makeEmpty_valid hl issuer.brand issuer.assetKind).2
  have hprepared := preparePaymentLedger_eq hl
  have hlookup : ∀ q st, (preparePaymentLedger issuer).purses.lookup q = some st →
      q = 0 ∧ st.currentBalance = AmountMath.makeEmpty issuer.lib issuer.brand issuer.assetKind ∧
        st.recoverySet = [] := by
    intro q st hq
    rw [hprepared] at hq
    simp only [Table.lookup_insert] at hq
    split at hq
    case isTrue h0 =>
      cases hq
      exact ⟨h0, rfl, rfl⟩
    case isFalse => cases hq
  have hbalances : ∀ c, (preparePaymentLedger issuer).balances c = 0 := by
    intro c
    refine Table.sumOver_eq_zero fun q st hq => ?_
    rw [(hlookup q st hq).2.1, hzero]
    rfl
  constructor
  case balances =>
    intro q st hq
    rw [(hlookup q st hq).2.1]
    exact hempty
  case payments =>
    rw [hprepared]
    intro r a hr
    cases hr
  case numbered =>
    rw [hprepared]
    rintro r (hr | hr) <;> cases hr
  case pursesNumbered =>
    intro q hq
    obtain ⟨st, hst⟩ := Option.isSome_iff_exists.mp hq
    rw [(hlookup q st hst).1, hprepared]
    exact Nat.one_pos
  case mintPurse =>
    rw [hprepared]
    rfl
  case recoverable =>
    rw [hprepared]
    intro r q hr
    cases hr
  case recovered =>
    intro r q st hq hr
    rw [(hlookup q st hq).2.2] at hr
    cases hr
  case nodup =>
    intro q st hq
    rw [(hlookup q st hq).2.2]
    exact List.nodup_nil
  case noSets => exact fun _ q st hq => (hlookup q st hq).2.2
  case consumed_nodup =>
    rw [hprepared]
    exact List.nodup_nil
  case consumed_dead =>
    rw [hprepared]
    intro r hr
    cases hr
  case conserved =>
    intro c
    rw [hbalances, hprepared]
    rfl
  case single =>
    intro _ c
    rw [hbalances, hprepared]
    exact Nat.zero_le 1
  case running =>
    rw [hprepared]
    rfl

theorem MintsFresh.le_one {newAmount : Specimen β κ} (h : Holds issuer 0 [] s)
    (hfresh : MintsFresh issuer s (.mintPayment newAmount)) (hu : issuer.assetKind.Unique)
    (hissued : issued issuer newAmount = some a) (c : Option κ) :
    s.balances c + s.payments c + a.worth c ≤ 1 := by
  have hproper := proper_of_issued hl hissued
  have hone := AmountMath.worth_le_one hl hproper.valid hu c
  have hsingle : s.balances c + s.payments c + 0 ≤ 1 := h.single hu c
  rcases Nat.eq_zero_or_pos (a.worth c) with h0 | hpos
  · omega
  · cases c with
    | none =>
      have hnone : a.worth none = 0 := by
        have hkind := Issuer.coerced_cases hproper.valid.coerced
        rcases hkind with ⟨hk, -⟩ | ⟨-, l, -, hv⟩ | ⟨-, l, -, hv⟩ | ⟨-, l, -, hv⟩
        · rcases hu with hu | hu <;> rw [hk] at hu <;> cases hu
        all_goals rw [Amount.worth, hv]; rfl
      omega
    | some k =>
      have := hfresh hu a hissued k hpos
      omega

theorem step_spec {op : LedgerOp β κ} (h : Holds issuer 0 [] s) (hok : MintsFresh issuer s op)
    (hstep : (ledgerSystem issuer).step s op = some t) :
    Holds issuer 0 [] t ∧ t.mintRecoveryPurse = s.mintRecoveryPurse ∧
      ∀ newAmount, op = .mintPayment newAmount →
        t.balanceOf s.mintRecoveryPurse = s.balanceOf s.mintRecoveryPurse := by
  simp only [ledgerSystem] at hstep
  split at hstep
  case isFalse => cases hstep
  case isTrue henabled =>
    cases hstep
    refine finalState_of_wp (P := fun t => Holds issuer 0 [] t ∧
      t.mintRecoveryPurse = s.mintRecoveryPurse ∧ ∀ newAmount, op = .mintPayment newAmount →
        t.balanceOf s.mintRecoveryPurse = s.balanceOf s.mintRecoveryPurse) ?_
    cases op with
    | mintPayment newAmount =>
      have hmint := mintPayment_spec hl h newAmount fun hu a hissued c =>
        MintsFresh.le_one hl h hok hu hissued c
      have hend : ∀ t, Holds issuer 0 [] t ∧ KeepsPurses s t ∧
          t.balanceOf s.mintRecoveryPurse = s.balanceOf s.mintRecoveryPurse →
          Holds issuer 0 [] t ∧ t.mintRecoveryPurse = s.mintRecoveryPurse ∧
          ∀ newAmount', LedgerOp.mintPayment newAmount = .mintPayment newAmount' →
            t.balanceOf s.mintRecoveryPurse = s.balanceOf s.mintRecoveryPurse := by
        rintro t ⟨ht, hkeep, hbal⟩
        exact ⟨ht, hkeep.1, fun _ _ => hbal⟩
      simp only [LedgerOp.run, wp_map]
      exact wp_mono hmint (fun _ t ht => hend t ht) fun _ t ht => hend t ht
    | deposit purse srcPayment optAmountShape =>
      simp only [LedgerOp.run, wp_map]
      refine wp_mono (deposit_spec hl h henabled srcPayment optAmountShape) ?_ ?_
      · rintro _ t ⟨ht, hkeep, -⟩
        exact ⟨ht, hkeep.1, fun _ h => by cases h⟩
      · rintro _ t rfl
        exact ⟨h, rfl, fun _ h => by cases h⟩
    | receive purse srcPayment optAmountShape =>
      simp only [LedgerOp.run, wp_map, receive]
      refine wp_mono (deposit_spec hl h henabled srcPayment optAmountShape) ?_ ?_
      · rintro _ t ⟨ht, hkeep, -⟩
        exact ⟨ht, hkeep.1, fun _ h => by cases h⟩
      · rintro _ t rfl
        exact ⟨h, rfl, fun _ h => by cases h⟩
    | withdraw purse amount =>
      simp only [LedgerOp.run, wp_map]
      refine wp_mono (withdraw_spec hl h henabled amount) ?_ ?_
      · rintro _ t ⟨ht, hkeep, -⟩
        exact ⟨ht, hkeep.1, fun _ h => by cases h⟩
      · rintro _ t ⟨ht, hkeep, -⟩
        exact ⟨ht, hkeep.1, fun _ h => by cases h⟩
    | burn payment optAmountShape =>
      simp only [LedgerOp.run, wp_map]
      refine wp_mono (burn_spec h payment optAmountShape) ?_ ?_
      · rintro _ t ⟨ht, hkeep⟩
        exact ⟨ht, hkeep.1, fun _ h => by cases h⟩
      · rintro _ t rfl
        exact ⟨h, rfl, fun _ h => by cases h⟩
    | recoverAll purse =>
      simp only [LedgerOp.run, wp_map]
      refine wp_mono (recoverAll_spec hl h henabled) ?_ ?_
      · rintro _ t ⟨ht, hkeep⟩
        exact ⟨ht, hkeep.1, fun _ h => by cases h⟩
      · rintro _ t ⟨ht, hkeep⟩
        exact ⟨ht, hkeep.1, fun _ h => by cases h⟩
    | makeEmptyPurse =>
      simp only [LedgerOp.run, wp_map]
      refine wp_mono (makeEmptyPurse_spec hl h) ?_ fun _ _ he => he.elim
      rintro _ t ⟨ht, hmint⟩
      exact ⟨ht, hmint, fun _ h => by cases h⟩

theorem holds_of_reachable (h : (ledgerSystem issuer).Reachable (MintsFresh issuer) s) :
    Holds issuer 0 [] s := by
  refine h.invariant ?_ fun _ _ _ hs hok hstep => (step_spec hl hs hok hstep).1
  rintro _ rfl
  exact holds_prepare hl

end Runs

/-- A fungible issuer. -/
def moola : Issuer Nat Nat where
  lib := numberStore
  brand := 0
  assetKind := .nat
  elementShape := none
  recoverySetsState := .hasRecoverySets
  optShutdownWithFailure := none
  nat_elementShape := fun _ => rfl

/-- Seven units are minted, three withdrawn again from the purse they went to,
and those are burned; the minted payment is offered a second time in vain. -/
def moolaCalls : List (LedgerOp Nat Nat) :=
  [.makeEmptyPurse,
    .mintPayment (.amount { brand := 0, value := .bigint 7 }),
    .deposit 1 (.remotable (.payment 1)) .absent,
    .receive 0 (.remotable (.payment 1)) .absent,
    .withdraw 1 (.amount { brand := 0, value := .bigint 3 }),
    .burn (.remotable (.payment 2)) .absent]

end AgoricSdk.ERTP
