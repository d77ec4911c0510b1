import AgoricSdk.ERTP.IssuerKit

/-!
When a call that throws leaves the books as they were. The addition to a balance comes
after the payment is used up, and it is partial for sets: there a payment can be lost.
-/

namespace AgoricSdk.ERTP

open StateProgram Books

variable {β κ : Type} [DecidableEq β] [DecidableEq κ] {issuer : Issuer β κ} {s t : Ledger β κ}
  {p : PurseID} {st : PurseState β κ} {r : Remotable} {a b : Amount β κ}

/-- The amounts add up: no unit of a unique asset is in both. -/
def Issuer.Fits (issuer : Issuer β κ) (a b : Amount β κ) : Prop :=
  issuer.assetKind.Unique → ∀ c, a.worth c + b.worth c ≤ 1

theorem add_isSome_iff (hl : issuer.lib.Lawful) (ha : issuer.Proper a) (hb : issuer.Proper b) :
    (AmountMath.add issuer.lib a b none).isSome ↔ issuer.Fits a b := by
  constructor
  · intro hsome hu c
    obtain ⟨sum, hsum⟩ := Option.isSome_iff_exists.mp hsome
    obtain ⟨hproper, hworth⟩ := ha.add hl hb hsum
    have hone := AmountMath.worth_le_one hl hproper.valid hu c
    rwa [hworth] at hone
  · intro hfits
    exact AmountMath.add_isSome hl ha.valid hb.valid hfits

/-- Nothing past a commit point of the call throws. A payment that is deposited fits the
balance, and so do all those that are recovered. If a minted amount can be added to the
mint recovery purse, taking it out again leaves an equal balance; if that purse cannot be
used, adding the amount changes nothing. -/
def CommitsWhole (issuer : Issuer β κ) (s : Ledger β κ) : LedgerOp β κ → Prop
  | .deposit purse srcPayment optAmountShape | .receive purse srcPayment optAmountShape =>
      ∀ r a st, s.books.checked srcPayment optAmountShape = some (r, a) →
        s.books.purse purse = some st → issuer.Fits st.currentBalance a
  | .recoverAll purse => issuer.recoverySetsState = .hasRecoverySets →
      ∀ st, s.books.purse purse = some st →
        s.books.Fits issuer st.currentBalance st.recoverySet
  | .mintPayment newAmount => ∀ a st sum, issued issuer newAmount = some a →
      s.books.purse s.mintRecoveryPurse = some st →
      AmountMath.add issuer.lib st.currentBalance a none = some sum →
      (issuer.usable st → ∀ difference,
        AmountMath.subtract issuer.lib sum a none = some difference →
          issuer.keyEQ st.currentBalance difference = true) ∧
      (¬ issuer.usable st → sum = st.currentBalance)
  | _ => True

section Calls

variable (hl : issuer.lib.Lawful)
include hl

theorem deposit_throws (h : s.books.WellFormed issuer) (hp : s.purses.lookup p = some st)
    (srcPayment : Specimen β κ) (optAmountShape : PatternArg β κ) :
    Wp (deposit issuer p srcPayment optAmountShape)
      (fun _ _ => CommitsWhole issuer s (.deposit p srcPayment optAmountShape))
      (fun _ t => t.books = s.books ↔ CommitsWhole issuer s (.deposit p srcPayment optAmountShape))
      s := by
  have hsum : ∀ a, s.books.sum issuer p a = AmountMath.add issuer.lib st.currentBalance a none := by
    intro a
    dsimp only [Books.sum]
    rw [show s.books.purse p = some st from hp]
    rfl
  have hpurse : ∀ st', s.books.purse p = some st' → st' = st := by
    intro st' hst'
    exact Option.some.inj (hst'.symm.trans hp)
  refine wp_mono (deposit_books hl h hp srcPayment optAmountShape) ?_ ?_
  · rintro a t ⟨r, sum, hchecked, hadd, -⟩
    intro r' a' st' hchecked' hst'
    rw [hchecked] at hchecked'
    cases hchecked'
    cases hpurse st' hst'
    rw [← add_isSome_iff hl (h.balances p st hp) (h.payments r a (payment_of_checked hchecked)),
      ← hsum, hadd]
    rfl
  · rintro _ t (⟨hchecked, rfl⟩ | ⟨r, a, hchecked, hnone, hbooks, -⟩)
    · refine ⟨fun _ r a st' hchecked' => ?_, fun _ => rfl⟩
      rw [hchecked] at hchecked'
      cases hchecked'
    · have hlive := payment_of_checked hchecked
      constructor
      · intro heq
        have hdead : t.books.payment r = none := by
          rw [hbooks]
          exact Function.update_self ..
        rw [heq, hlive] at hdead
        cases hdead
      · intro hwhole
        have hfits := hwhole r a st hchecked hp
        rw [← add_isSome_iff hl (h.balances p st hp) (h.payments r a hlive), ← hsum, hnone] at hfits
        cases hfits

theorem recoverAll_throws (h : s.books.WellFormed issuer) (hp : s.purses.lookup p = some st) :
    Wp (recoverAll issuer p) (fun _ _ => CommitsWhole issuer s (.recoverAll p))
      (fun _ t => t.books = s.books ↔ CommitsWhole issuer s (.recoverAll p)) s := by
  have hpurse : ∀ st', s.books.purse p = some st' → st' = st := by
    intro st' hst'
    exact Option.some.inj (hst'.symm.trans hp)
  refine wp_mono (recoverAll_books hl h hp) ?_ ?_
  · intro sum t ht hmode st' hst' hu c
    rw [if_pos hmode] at ht
    obtain ⟨st'', hst'', -, hworth⟩ := ht.1.purse
    have hone := AmountMath.worth_le_one hl (ht.1.wellFormed.balances p st'' hst'').valid hu c
    rwa [hworth, ← hpurse st' hst'] at hone
  · rintro _ t (⟨rfl, hunusable⟩ | ⟨hmode, hlost⟩)
    · refine ⟨fun _ hmode => absurd (fun hno => ?_) hunusable, fun _ => rfl⟩
      rw [hmode] at hno
      cases hno
    · constructor
      · intro heq
        obtain ⟨r, hr, hdead⟩ := hlost.lost
        obtain ⟨a, -, hlive, -⟩ := h.recoverable r p (h.recovered r p st hp hr)
        rw [heq, hlive] at hdead
        cases hdead
      · intro hwhole
        exact absurd (hwhole hmode st hp) hlost.notFits

theorem mintPayment_throws (hk : KeyEQReflexive issuer.lib) (h : Consistent issuer s)
    (newAmount : Specimen β κ) :
    Wp (mintPayment issuer newAmount) (fun _ _ => CommitsWhole issuer s (.mintPayment newAmount))
      (fun _ t => t.books = s.books ↔ CommitsWhole issuer s (.mintPayment newAmount)) s := by
  obtain ⟨st, hp⟩ := Option.isSome_iff_exists.mp h.mintPurse
  have hpurse : ∀ st', s.books.purse s.mintRecoveryPurse = some st' → st' = st := by
    intro st' hst'
    exact Option.some.inj (hst'.symm.trans hp)
  refine wp_mono (mintPayment_books hl hk h hp newAmount) ?_ ?_
  · rintro r t ⟨a, sum, difference, hissued, husable, hadd, hsub, hkeyEQ, -⟩
    intro a' st' sum' hissued' hst' hadd'
    cases hpurse st' hst'
    rw [hissued] at hissued'
    cases hissued'
    rw [hadd] at hadd'
    cases hadd'
    refine ⟨fun _ difference' hsub' => ?_, fun hunusable => absurd husable hunusable⟩
    rw [hsub] at hsub'
    cases hsub'
    exact hkeyEQ
  · rintro _ t ⟨-, ⟨hbooks, hnone⟩ | ⟨a, sum, hissued, hadd, ⟨hunusable, hbooks⟩ |
      ⟨husable, difference, n, hsub, hkeyEQ, hle, -, hbooks⟩⟩⟩
    · refine ⟨fun _ a st' sum hissued hst' hadd => ?_, fun _ => hbooks⟩
      cases hpurse st' hst'
      rw [hnone a hissued] at hadd
      cases hadd
    · constructor
      · intro heq a' st' sum' hissued' hst' hadd'
        cases hpurse st' hst'
        rw [hissued] at hissued'
        cases hissued'
        rw [hadd] at hadd'
        cases hadd'
        refine ⟨fun husable => absurd husable hunusable, fun _ => ?_⟩
        have hpurse' := purse_withBalance_self hst' sum
        rw [← hbooks, heq, hst'] at hpurse'
        exact congrArg PurseState.currentBalance (Option.some.inj hpurse').symm
      · intro hwhole
        obtain ⟨-, hsame⟩ := hwhole a st sum hissued hp hadd
        rw [hbooks, hsame hunusable]
        refine Books.ext rfl rfl ?_
        funext q
        dsimp only [withBalance]
        split
        case isTrue hq =>
          rw [hq, show s.books.purse s.mintRecoveryPurse = some st from hp]
          rfl
        case isFalse => rfl
    · constructor
      · intro heq
        have hlive : t.books.payment (.payment n) = some a := by
          rw [hbooks]
          exact Function.update_self ..
        rw [heq, h.payment_new hle] at hlive
        cases hlive
      · intro hwhole
        obtain ⟨hround, -⟩ := hwhole a st sum hissued hp hadd
        rw [hround husable difference hsub] at hkeyEQ
        cases hkeyEQ

/-- Every call leaves the books as they were when it throws, exactly when nothing past its
commit point can throw. -/
theorem run_throws (hk : KeyEQReflexive issuer.lib) (h : Consistent issuer s) (op : LedgerOp β κ)
    (hp : op.purse.all s.purses.has = true) :
    Wp (op.run issuer) (fun _ _ => CommitsWhole issuer s op)
      (fun _ t => t.books = s.books ↔ CommitsWhole issuer s op) s := by
  cases op with
  | mintPayment newAmount =>
    simp only [LedgerOp.run, wp_map]
    exact mintPayment_throws hl hk h newAmount
  | deposit purse srcPayment optAmountShape =>
    obtain ⟨st, hst⟩ := Option.isSome_iff_exists.mp hp
    simp only [LedgerOp.run, wp_map]
    exact deposit_throws hl h.wellFormed hst srcPayment optAmountShape
  | receive purse srcPayment optAmountShape =>
    obtain ⟨st, hst⟩ := Option.isSome_iff_exists.mp hp
    simp only [LedgerOp.run, wp_map, receive]
    exact deposit_throws hl h.wellFormed hst srcPayment optAmountShape
  | withdraw purse amount =>
    obtain ⟨st, hst⟩ := Option.isSome_iff_exists.mp hp
    simp only [LedgerOp.run, wp_map]
    refine wp_mono (withdraw_books hl h hst amount) (fun _ _ _ => trivial) ?_
    rintro _ t ⟨hbooks, -⟩
    exact ⟨fun _ => trivial, fun _ => hbooks⟩
  | burn payment optAmountShape =>
    simp only [LedgerOp.run, wp_map]
    refine wp_mono (burn_books h.wellFormed payment optAmountShape) (fun _ _ _ => trivial) ?_
    rintro _ t ⟨-, rfl⟩
    exact ⟨fun _ => trivial, fun _ => rfl⟩
  | recoverAll purse =>
    obtain ⟨st, hst⟩ := Option.isSome_iff_exists.mp hp
    simp only [LedgerOp.run, wp_map]
    exact recoverAll_throws hl h.wellFormed hst
  | makeEmptyPurse =>
    simp only [LedgerOp.run, wp_map]
    have hmade : Wp (makeEmptyPurse issuer) (fun _ t => Called issuer s .makeEmptyPurse t)
        (fun _ _ => False) s := makeEmptyPurse_called hl h
    exact wp_mono hmade (fun _ _ _ => trivial) fun _ _ he => he.elim

end Calls

/-- Every element is there at most once, as far as arithmetic goes. -/
def tickets : Issuer Nat Nat where
  lib := numberStore
  brand := 0
  assetKind := .copySet
  elementShape := none
  recoverySetsState := .hasRecoverySets
  optShutdownWithFailure := none
  nat_elementShape := fun _ => rfl

theorem numberStore_keyEQReflexive : KeyEQReflexive numberStore := by
  intro kind v _
  cases v <;> simp [numberStore, NumberStore.isSuperset, NumberStore.isSuperbag]

/-- Ticket 7 is minted twice; one of the two is in purse 1. -/
def ticketCalls : List (IssuerKitAction Nat Nat) :=
  [.call .makeEmptyPurse,
    .call (.mintPayment (.amount { brand := 0, value := .copySet [7] })),
    .call (.mintPayment (.amount { brand := 0, value := .copySet [7] })),
    .call (.deposit 1 (.remotable (.payment 1)) .absent)]

/-- The kit after these calls. -/
def ticketKit : Option (IssuerKit Nat Nat) :=
  (issuerKitSystem tickets).runWhile TransitionSystem.anyStep (makeDurableIssuerKit tickets none)
    ticketCalls

theorem reachable_of_ticketKit {kit : IssuerKit Nat Nat} (h : ticketKit = some kit) :
    (issuerKitSystem tickets).Reachable TransitionSystem.anyStep kit := by
  refine TransitionSystem.Reachable.of_runWhile (.init ?_) h
  exact ⟨none, rfl⟩

/-- Whether the payment is live before and after the call, if it throws. -/
def liveAfterThrow (kit : IssuerKit Nat Nat) (op : LedgerOp Nat Nat) (r : Remotable) :
    Option (Bool × Bool) :=
  match op.run kit.issuer kit.ledger with
  | .error _ t => some (kit.ledger.paymentLedger.has r, t.paymentLedger.has r)
  | .ok _ _ => none

end AgoricSdk.ERTP
