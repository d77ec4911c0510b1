import AgoricSdk.ERTP.LedgerAtomicity

/-!
Recovery sets hold exactly the payments that were withdrawn from their purses and not used
up, as long as no upgrade comes back to them after a time without. An upgrade can: the new
option is not stored, so the next one falls back to what the kit was made with.
-/

namespace AgoricSdk.ERTP

open StateProgram Books

variable {β κ : Type} [DecidableEq β] [DecidableEq κ] {issuer : Issuer β κ} {s t : Ledger β κ}
  {p : PurseID} {st : PurseState β κ} {r : Remotable} {a : Amount β κ}

namespace IssuerKit

/-- The live payments that are not empty and were withdrawn from the purse. -/
def Outstanding (kit : IssuerKit β κ) (p : PurseID) (r : Remotable) : Prop :=
  ∃ a, kit.ledger.paymentLedger.lookup r = some a ∧ a.worth ≠ 0 ∧ kit.withdrawnFrom r = some p

/-- The recovery sets of the purses and the store of the recovery set of each payment
mirror each other, and hold outstanding payments. With recovery sets they hold all of them.
A purse recovers its set, and takes a live payment, if they fit. -/
structure RecoverySetsExact (kit : IssuerKit β κ) : Prop where
  mirrored : ∀ p st, kit.ledger.purses.lookup p = some st → ∀ r,
    r ∈ st.recoverySet ↔ kit.ledger.paymentRecoverySets.lookup r = some p
  single : ∀ p q st st' r, kit.ledger.purses.lookup p = some st →
    kit.ledger.purses.lookup q = some st' → r ∈ st.recoverySet → r ∈ st'.recoverySet → p = q
  outstanding : ∀ p st, kit.ledger.purses.lookup p = some st → ∀ r ∈ st.recoverySet,
    kit.Outstanding p r
  exact : kit.issuer.recoverySetsState = .hasRecoverySets →
    ∀ p st, kit.ledger.purses.lookup p = some st → ∀ r, r ∈ st.recoverySet ↔ kit.Outstanding p r
  recovers : kit.issuer.recoverySetsState = .hasRecoverySets →
    ∀ p st, kit.ledger.purses.lookup p = some st →
      ((∃ sum t, recoverAll kit.issuer p kit.ledger = .ok sum t ∧
        Recovered kit.issuer kit.ledger p st t ∧
        ∀ c, sum.worth c = kit.ledger.books.worthOf st.recoverySet c) ↔
      kit.ledger.books.Fits kit.issuer st.currentBalance st.recoverySet)
  depositable : ∀ p st r a, kit.ledger.purses.lookup p = some st →
    kit.ledger.paymentLedger.lookup r = some a →
      ((∃ t, deposit kit.issuer p (.remotable r) .absent kit.ledger = .ok a t ∧
        ∃ sum, (∀ c, sum.worth c = st.currentBalance.worth c + a.worth c) ∧
          t.books = (kit.ledger.books.withoutPayment r).withBalance p sum) ↔
      kit.issuer.Fits st.currentBalance a)

end IssuerKit

section Calls

variable (hl : issuer.lib.Lawful)
include hl

theorem recoverAll_iff (h : s.books.WellFormed issuer)
    (hmode : issuer.recoverySetsState = .hasRecoverySets) (hp : s.purses.lookup p = some st) :
    (∃ sum t, recoverAll issuer p s = .ok sum t ∧ Recovered issuer s p st t ∧
      ∀ c, sum.worth c = s.books.worthOf st.recoverySet c) ↔
    s.books.Fits issuer st.currentBalance st.recoverySet := by
  have hbooks := recoverAll_books hl h hp
  constructor
  · rintro ⟨sum, t, hrun, -⟩
    have hwhole := wp_of_ok (recoverAll_throws hl h hp) hrun
    exact hwhole hmode st hp
  · intro hfits
    cases hrun : recoverAll issuer p s with
    | ok sum t =>
      have ht := wp_of_ok hbooks hrun
      rw [if_pos hmode] at ht
      exact ⟨sum, t, rfl, ht⟩
    | error e t =>
      rcases wp_of_error hbooks hrun with ⟨-, hunusable⟩ | ⟨-, hlost⟩
      · refine absurd (fun hno => ?_) hunusable
        rw [hmode] at hno
        cases hno
      · exact absurd hfits hlost.notFits

theorem deposit_iff (h : s.books.WellFormed issuer) (hp : s.purses.lookup p = some st)
    (hr : s.paymentLedger.lookup r = some a) :
    (∃ t, deposit issuer p (.remotable r) .absent s = .ok a t ∧
      ∃ sum, (∀ c, sum.worth c = st.currentBalance.worth c + a.worth c) ∧
        t.books = (s.books.withoutPayment r).withBalance p sum) ↔
    issuer.Fits st.currentBalance a := by
  have hbooks := deposit_books hl h hp (.remotable r) .absent
  have hchecked : s.books.checked (.remotable r) .absent = some (r, a) := by
    rw [checked, show s.books.payment r = some a from hr]
    rfl
  have hsum : s.books.sum issuer p a = AmountMath.add issuer.lib st.currentBalance a none := by
    dsimp only [Books.sum]
    rw [show s.books.purse p = some st from hp]
    rfl
  have hbalance := h.balances p st hp
  have ha := h.payments r a hr
  constructor
  · rintro ⟨t, hrun, -⟩
    have hwhole := wp_of_ok (deposit_throws hl h hp (.remotable r) .absent) hrun
    exact hwhole r a st hchecked hp
  · intro hfits
    cases hrun : deposit issuer p (.remotable r) .absent s with
    | ok delta t =>
      obtain ⟨r', sum, hchecked', hadd, ht, -⟩ := wp_of_ok hbooks hrun
      rw [hchecked] at hchecked'
      cases hchecked'
      obtain ⟨-, hworth⟩ := hbalance.add hl ha (hsum.symm.trans hadd)
      refine ⟨t, rfl, sum, fun c => ?_, ht⟩
      rw [hworth, Pi.add_apply]
    | error e t =>
      rcases wp_of_error hbooks hrun with ⟨hnone, -⟩ | ⟨r', a', hchecked', hnone, -⟩
      · rw [hchecked] at hnone
        cases hnone
      · rw [hchecked] at hchecked'
        cases hchecked'
        have hsome := (add_isSome_iff hl hbalance ha).mpr hfits
        rw [← hsum, hnone] at hsome
        cases hsome

end Calls

/-- A kit with recovery sets is upgraded to use none, seven units come to purse 1, three of
them are withdrawn, and another upgrade is made without an option. -/
def forgetfulUpgrade : List (IssuerKitAction Nat Nat) :=
  [.call .makeEmptyPurse,
    .upgrade none (some .noRecoverySets),
    .call (.mintPayment (.amount { brand := 0, value := .bigint 7 })),
    .call (.deposit 1 (.remotable (.payment 1)) .absent),
    .call (.withdraw 1 (.amount { brand := 0, value := .bigint 3 })),
    .upgrade none none]

/-- Ticket 7 is minted twice, both times through the mint recovery purse. -/
def twoTickets : List (IssuerKitAction Nat Nat) :=
  [.call (.mintPayment (.amount { brand := 0, value := .copySet [7] })),
    .call (.mintPayment (.amount { brand := 0, value := .copySet [7] }))]

end AgoricSdk.ERTP
