import AgoricSdk.ERTP.PaymentLedger

/-!
Conservation of assets in a payment ledger. The invariant speaks about assets
that are in flight between two stores, so that it holds after every single
write: `Holds flight gone` says that the purses, the live payments, what was
burned and what is in flight add up to what was minted, and that the payments
`gone` are used up though no event says so yet. Each method starts and ends
with nothing in flight.
-/

namespace AgoricSdk.ERTP

open StateProgram

variable {β κ : Type} [DecidableEq β] [DecidableEq κ]

/-! ## Sums of assets -/

namespace AssetEvent

def mintedWorth : AssetEvent β κ → Option κ → Nat
  | .minted amount => amount.worth
  | _ => 0

def burnedWorth : AssetEvent β κ → Option κ → Nat
  | .burned _ amount => amount.worth
  | _ => 0

/-- The payment that the event uses up. -/
def consumed : AssetEvent β κ → Option Remotable
  | .credited payment _ | .burned payment _ => some payment
  | .minted _ => none

end AssetEvent

namespace Ledger

variable (s : Ledger β κ)

/-- The sum of the balances of all purses. -/
def balances (c : Option κ) : Nat := s.purses.sumOver fun _ state => state.currentBalance.worth c

/-- The sum of all live payments. -/
def payments (c : Option κ) : Nat := s.paymentLedger.sumOver fun _ amount => amount.worth c

def minted (c : Option κ) : Nat := (s.events.map (·.mintedWorth c)).sum

def burned (c : Option κ) : Nat := (s.events.map (·.burnedWorth c)).sum

/-- The payments credited to a purse or burned, in order. -/
def consumed : List Remotable := s.events.filterMap AssetEvent.consumed

/-- What the purse holds. -/
def balanceOf (purse : PurseID) (c : Option κ) : Nat :=
  (s.purses.lookup purse).elim 0 fun state => state.currentBalance.worth c

end Ledger

/-! ## Amounts that the stores accept -/

namespace Issuer

variable (issuer : Issuer β κ)

/-- A coerced amount of the issuer's brand and kind that matches the amount shape. -/
structure Proper (a : Amount β κ) : Prop where
  valid : a.Valid issuer.lib issuer.brand issuer.assetKind
  shape : issuer.amountShape a = true

/-- Whether the shape of the values admits the element. -/
def admits (k : κ) : Prop :=
  (issuer.assetKind = .set → issuer.lib.isKey k = true) ∧
    ∀ p, issuer.elementShape = some p → p k = true

variable {issuer} {a b d : Amount β κ} (hl : issuer.lib.Lawful)

omit [DecidableEq κ] in
/-- A value of the ledger's kind in coerced form is one of the four collections. -/
theorem coerced_cases {lib : StoreLib κ} {kind : AssetKind} {v : Value κ}
    (hv : (helpers lib kind).Coerced v) :
    (kind = .nat ∧ ∃ n, 0 ≤ n ∧ v = .bigint n) ∨
    (kind = .set ∧ ∃ l, lib.IsElements l ∧ v = .copyArray l) ∨
    (kind = .copySet ∧ ∃ l, lib.matchesSet l = true ∧ v = .copySet l) ∨
    (kind = .copyBag ∧ ∃ es, lib.matchesBag es = true ∧ v = .copyBag es) := by
  cases kind with
  | nat =>
    cases v with
    | bigint n => exact .inl ⟨rfl, n, (Option.ite_none_right_eq_some.mp hv).1, rfl⟩
    | _ => cases hv
  | set =>
    cases v with
    | copyArray l =>
      obtain ⟨list, hlist, hkeys⟩ := Option.bind_eq_some_iff.mp hv
      obtain ⟨hall, heq⟩ := Option.ite_none_right_eq_some.mp hkeys
      cases heq
      exact .inr (.inl ⟨rfl, l, ⟨hlist, hall⟩, rfl⟩)
    | _ => cases hv
  | copySet =>
    cases v with
    | copySet l =>
      exact .inr (.inr (.inl ⟨rfl, l, (Option.ite_none_right_eq_some.mp hv).1, rfl⟩))
    | _ => cases hv
  | copyBag =>
    cases v with
    | copyBag es =>
      exact .inr (.inr (.inr ⟨rfl, es, (Option.ite_none_right_eq_some.mp hv).1, rfl⟩))
    | _ => cases hv

omit [DecidableEq κ] in
/-- The value shape settles the kind of the value. -/
theorem assetKind_of_amountShape {kind : AssetKind} (h : issuer.amountShape a = true)
    (hkind : assertValueGetAssetKind issuer.lib a.value = some kind) : kind = issuer.assetKind := by
  have hv : issuer.valueShape a.value = true := (Bool.and_eq_true_iff.mp h).2
  unfold valueShape at hv
  split at hv <;>
    simp_all [assertValueGetAssetKind]

include hl

theorem admits_of_amountShape (h : issuer.amountShape a = true) {k : κ}
    (hk : 0 < a.worth (some k)) : issuer.admits k := by
  have hv : issuer.valueShape a.value = true := (Bool.and_eq_true_iff.mp h).2
  unfold valueShape at hv
  split at hv <;>
    simp_all [admits, Amount.worth, Value.worth, hl.arrayOf_iff, hl.setOf_iff, hl.bagOf_iff]
  obtain ⟨e, he, rfl⟩ := exists_of_bagCount_pos hk
  exact hv.2 _ _ he

theorem matches_of_admits (ha : a.Valid issuer.lib issuer.brand issuer.assetKind)
    (h : ∀ k, 0 < a.worth (some k) → issuer.admits k) : issuer.amountShape a = true := by
  have hbrand : issuer.amountShape a = issuer.valueShape a.value := by
    simp [amountShape, ha.brand_eq]
  rw [hbrand]
  rcases coerced_cases ha.coerced with ⟨hk, n, hn, hv⟩ | ⟨hk, l, hel, hv⟩ | ⟨hk, l, hset, hv⟩ |
    ⟨hk, es, hbag, hv⟩
  · have hnone := issuer.nat_elementShape hk
    simp [valueShape, hk, hnone, hv, hl.nat_iff, hn]
  · have hkeys : ∀ k ∈ l, issuer.lib.isKey k = true := List.all_eq_true.mp hel.2
    simp only [hv, Amount.worth, Value.worth, List.count_pos_iff] at h
    cases he : issuer.elementShape with
    | none => simpa [valueShape, hk, he, hv, hl.arrayOf_iff] using hkeys
    | some p =>
      simp only [valueShape, hk, he, hv, hl.arrayOf_iff, Bool.and_eq_true]
      exact fun k hmem => ⟨hkeys k hmem, (h k hmem).2 p he⟩
  · simp only [hv, Amount.worth, Value.worth, List.count_pos_iff] at h
    cases he : issuer.elementShape with
    | none => simpa [valueShape, hk, he, hv] using hset
    | some p =>
      simp only [valueShape, hk, he, hv, hl.setOf_iff]
      exact ⟨hset, fun k hmem => (h k hmem).2 p he⟩
  · simp only [hv, Amount.worth, Value.worth] at h
    cases he : issuer.elementShape with
    | none => simpa [valueShape, hk, he, hv] using hbag
    | some p =>
      simp only [valueShape, hk, he, hv, hl.bagOf_iff]
      exact ⟨hbag, fun e hmem =>
        (h e.1 ((hl.bag_pos hbag e hmem).trans_le (le_bagCount hmem))).2 p he⟩

theorem proper_coerce (ha : issuer.amountShape a = true)
    (h : AmountMath.coerce issuer.lib issuer.brand a = some b) :
    issuer.Proper b ∧ b.worth = a.worth := by
  obtain ⟨kind, hkind, hvalid, hworth⟩ := AmountMath.coerce_some hl h
  rw [assetKind_of_amountShape ha hkind] at hvalid
  refine ⟨⟨hvalid, matches_of_admits hl hvalid fun k hk => ?_⟩, hworth⟩
  rw [hworth] at hk
  exact admits_of_amountShape hl ha hk

theorem proper_makeEmpty :
    issuer.Proper (AmountMath.makeEmpty issuer.lib issuer.brand issuer.assetKind) := by
  obtain ⟨hvalid, hzero⟩ := AmountMath.makeEmpty_valid hl issuer.brand issuer.assetKind
  refine ⟨hvalid, matches_of_admits hl hvalid fun k hk => ?_⟩
  rw [hzero] at hk
  exact absurd hk (Nat.lt_irrefl 0)

theorem Proper.add (ha : issuer.Proper a) (hb : issuer.Proper b)
    (h : AmountMath.add issuer.lib a b none = some d) :
    issuer.Proper d ∧ d.worth = a.worth + b.worth := by
  obtain ⟨hvalid, hworth⟩ := AmountMath.add_some hl ha.valid hb.valid h
  refine ⟨⟨hvalid, matches_of_admits hl hvalid fun k hk => ?_⟩, hworth⟩
  rw [hworth, Pi.add_apply] at hk
  rcases Nat.eq_zero_or_pos (a.worth (some k)) with h0 | hpos
  · exact admits_of_amountShape hl hb.shape (by omega)
  · exact admits_of_amountShape hl ha.shape hpos

theorem Proper.subtract (ha : issuer.Proper a) (hb : issuer.Proper b)
    (h : AmountMath.subtract issuer.lib a b none = some d) :
    issuer.Proper d ∧ d.worth + b.worth = a.worth := by
  obtain ⟨hvalid, hworth⟩ := AmountMath.subtract_some hl ha.valid hb.valid h
  refine ⟨⟨hvalid, matches_of_admits hl hvalid fun k hk => ?_⟩, hworth⟩
  refine admits_of_amountShape hl ha.shape ?_
  rw [← hworth, Pi.add_apply]
  omega

end Issuer

/-! ## The invariant -/

section Invariant

variable (issuer : Issuer β κ)

structure Holds (flight : Option κ → Nat) (gone : List Remotable) (s : Ledger β κ) : Prop where
  balances : ∀ p st, s.purses.lookup p = some st → issuer.Proper st.currentBalance
  payments : ∀ r a, s.paymentLedger.lookup r = some a → issuer.Proper a
  numbered : ∀ r, s.paymentLedger.has r = true ∨ r ∈ gone ++ s.consumed →
    ∃ n < s.nextPayment, r = .payment n
  pursesNumbered : ∀ p, s.purses.has p = true → p < s.nextPurse
  mintPurse : s.purses.has s.mintRecoveryPurse = true
  recoverable : ∀ r p, s.paymentRecoverySets.lookup r = some p →
    s.paymentLedger.has r = true ∧ ∃ st, s.purses.lookup p = some st ∧ r ∈ st.recoverySet
  recovered : ∀ r p st, s.purses.lookup p = some st → r ∈ st.recoverySet →
    s.paymentRecoverySets.lookup r = some p
  nodup : ∀ p st, s.purses.lookup p = some st → st.recoverySet.Nodup
  noSets : issuer.recoverySetsState = .noRecoverySets →
    ∀ p st, s.purses.lookup p = some st → st.recoverySet = []
  consumed_nodup : (gone ++ s.consumed).Nodup
  consumed_dead : ∀ r ∈ gone ++ s.consumed, s.paymentLedger.lookup r = none
  conserved : ∀ c, s.balances c + s.payments c + s.burned c + flight c = s.minted c
  single : issuer.assetKind.Unique → ∀ c, s.balances c + s.payments c + flight c ≤ 1
  running : s.shutdown = false

end Invariant

section Specs

variable {issuer : Issuer β κ} {s t : Ledger β κ} {flight : Option κ → Nat} {gone : List Remotable}
  {p : PurseID} {st : PurseState β κ} {r : Remotable} {a : Amount β κ}

/-- The balances of the other purses stay. -/
def KeepsPurses (s t : Ledger β κ) : Prop :=
  t.mintRecoveryPurse = s.mintRecoveryPurse ∧ ∀ p, t.purses.has p = s.purses.has p

omit [DecidableEq β] in
theorem balances_setPurse (h : s.purses.lookup p = some st) (st' : PurseState β κ) (c : Option κ) :
    (s.purses.insert p st').sumOver (fun _ state => state.currentBalance.worth c) +
      st.currentBalance.worth c = s.balances c + st'.currentBalance.worth c :=
  Table.sumOver_insert_some h

theorem Holds.setBalance (h : Holds issuer flight gone s) (hp : s.purses.lookup p = some st)
    (ha : issuer.Proper a) {flight' : Option κ → Nat}
    (hflight : ∀ c, a.worth c + flight' c = st.currentBalance.worth c + flight c) :
    Holds issuer flight' gone
      { s with purses := s.purses.insert p { st with currentBalance := a } } := by
  have hlookup : ∀ q st', (s.purses.insert p { st with currentBalance := a }).lookup q = some st' →
      ∃ st'', s.purses.lookup q = some st'' ∧ st''.recoverySet = st'.recoverySet := by
    intro q st' hq
    rw [Table.lookup_insert] at hq
    split at hq
    case isTrue hqp =>
      cases hq
      exact ⟨st, hqp ▸ hp, rfl⟩
    case isFalse => exact ⟨st', hq, rfl⟩
  have hsum : ∀ c, Ledger.balances { s with
      purses := s.purses.insert p { st with currentBalance := a } } c + st.currentBalance.worth c =
        s.balances c + a.worth c := fun c => balances_setPurse hp _ c
  constructor
  case balances =>
    intro q st' hq
    simp only [Table.lookup_insert] at hq
    split at hq
    case isTrue =>
      cases hq
      exact ha
    case isFalse => exact h.balances q st' hq
  case payments => exact h.payments
  case numbered => exact h.numbered
  case pursesNumbered =>
    intro q hq
    rw [Table.has_insert_of_lookup hp] at hq
    exact h.pursesNumbered q hq
  case mintPurse =>
    rw [Table.has_insert_of_lookup hp]
    exact h.mintPurse
  case recoverable =>
    intro q p' hq
    obtain ⟨hlive, st', hp', hmem⟩ := h.recoverable q p' hq
    refine ⟨hlive, ?_⟩
    by_cases hpp : p' = p
    · rw [hpp, hp] at hp'
      cases hp'
      exact ⟨{ st with currentBalance := a }, by simp [hpp], hmem⟩
    · exact ⟨st', by simp [hpp, hp'], hmem⟩
  case recovered =>
    intro q p' st' hp' hmem
    obtain ⟨st'', hp'', hset⟩ := hlookup p' st' hp'
    exact h.recovered q p' st'' hp'' (hset ▸ hmem)
  case nodup =>
    intro p' st' hp'
    obtain ⟨st'', hp'', hset⟩ := hlookup p' st' hp'
    exact hset ▸ h.nodup p' st'' hp''
  case noSets =>
    intro hno p' st' hp'
    obtain ⟨st'', hp'', hset⟩ := hlookup p' st' hp'
    exact hset ▸ h.noSets hno p' st'' hp''
  case consumed_nodup => exact h.consumed_nodup
  case consumed_dead => exact h.consumed_dead
  case conserved =>
    intro c
    have h₁ := h.conserved c
    have h₂ := hsum c
    have h₃ := hflight c
    change Ledger.balances { s with purses := _ } c + s.payments c + s.burned c + flight' c =
      s.minted c
    omega
  case single =>
    intro hu c
    have h₁ := h.single hu c
    have h₂ := hsum c
    have h₃ := hflight c
    change Ledger.balances { s with purses := _ } c + s.payments c + flight' c ≤ 1
    omega
  case running => exact h.running

/-- The state with other recovery sets. -/
def Ledger.withRecoverySet (s : Ledger β κ) (p : PurseID) (st : PurseState β κ)
    (recoverySet : List Remotable) (sets : Table Remotable PurseID) : Ledger β κ :=
  { s with
    paymentRecoverySets := sets
    purses := s.purses.insert p { st with recoverySet } }

section RecoverySets

variable {recoverySet : List Remotable} {sets : Table Remotable PurseID}

omit [DecidableEq β] in
theorem balances_withRecoverySet (hp : s.purses.lookup p = some st) :
    (s.withRecoverySet p st recoverySet sets).balances = s.balances := by
  funext c
  have := balances_setPurse hp { st with recoverySet } c
  dsimp only at this
  change (s.purses.insert p { st with recoverySet }).sumOver _ = _
  omega

omit [DecidableEq β] in
variable (sets) in
theorem balanceOf_withRecoverySet (hp : s.purses.lookup p = some st) :
    (s.withRecoverySet p st recoverySet sets).balanceOf = s.balanceOf := by
  funext q c
  simp only [Ledger.balanceOf, Ledger.withRecoverySet, Table.lookup_insert]
  split
  case isTrue hq => rw [hq, hp]; rfl
  case isFalse => rfl

omit [DecidableEq β] [DecidableEq κ] in
variable (sets) in
theorem keepsPurses_withRecoverySet (hp : s.purses.lookup p = some st) :
    KeepsPurses s (s.withRecoverySet p st recoverySet sets) :=
  ⟨rfl, Table.has_insert_of_lookup hp _⟩

theorem Holds.withRecoverySet (h : Holds issuer flight gone s)
    (hp : s.purses.lookup p = some st) (hnodup : recoverySet.Nodup)
    (hno : issuer.recoverySetsState = .noRecoverySets → recoverySet = [])
    (hrecoverable : ∀ r q, sets.lookup r = some q → s.paymentLedger.has r = true ∧
      if q = p then r ∈ recoverySet else s.paymentRecoverySets.lookup r = some q)
    (hmem : ∀ r ∈ recoverySet, sets.lookup r = some p)
    (hother : ∀ r q, q ≠ p → s.paymentRecoverySets.lookup r = some q → sets.lookup r = some q) :
    Holds issuer flight gone (s.withRecoverySet p st recoverySet sets) := by
  have hlookup : ∀ q st', (s.withRecoverySet p st recoverySet sets).purses.lookup q = some st' →
      (q = p ∧ st' = { st with recoverySet }) ∨ (q ≠ p ∧ s.purses.lookup q = some st') := by
    intro q st' hq
    simp only [Ledger.withRecoverySet, Table.lookup_insert] at hq
    split at hq
    case isTrue hqp => exact .inl ⟨hqp, (Option.some.inj hq).symm⟩
    case isFalse hqp => exact .inr ⟨hqp, hq⟩
  constructor
  case balances =>
    intro q st' hq
    rcases hlookup q st' hq with ⟨-, rfl⟩ | ⟨-, hq⟩
    · exact h.balances p st hp
    · exact h.balances q st' hq
  case payments => exact h.payments
  case numbered => exact h.numbered
  case pursesNumbered =>
    intro q hq
    exact h.pursesNumbered q (by rwa [(keepsPurses_withRecoverySet sets hp).2 q] at hq)
  case mintPurse =>
    rw [(keepsPurses_withRecoverySet sets hp).2]
    exact h.mintPurse
  case recoverable =>
    intro r q hq
    obtain ⟨hlive, hq'⟩ := hrecoverable r q hq
    refine ⟨hlive, ?_⟩
    simp only [Ledger.withRecoverySet, Table.lookup_insert]
    split at hq'
    case isTrue hqp => exact ⟨{ st with recoverySet }, if_pos hqp, hq'⟩
    case isFalse hqp =>
      obtain ⟨-, st', hst', hmem'⟩ := h.recoverable r q hq'
      exact ⟨st', by rw [if_neg hqp]; exact hst', hmem'⟩
  case recovered =>
    intro r q st' hq hr
    rcases hlookup q st' hq with ⟨rfl, rfl⟩ | ⟨hqp, hq⟩
    · exact hmem r hr
    · exact hother r q hqp (h.recovered r q st' hq hr)
  case nodup =>
    intro q st' hq
    rcases hlookup q st' hq with ⟨-, rfl⟩ | ⟨-, hq⟩
    · exact hnodup
    · exact h.nodup q st' hq
  case noSets =>
    intro hn q st' hq
    rcases hlookup q st' hq with ⟨-, rfl⟩ | ⟨-, hq⟩
    · exact hno hn
    · exact h.noSets hn q st' hq
  case consumed_nodup => exact h.consumed_nodup
  case consumed_dead => exact h.consumed_dead
  case conserved =>
    intro c
    rw [balances_withRecoverySet hp]
    exact h.conserved c
  case single =>
    intro hu c
    rw [balances_withRecoverySet hp]
    exact h.single hu c
  case running => exact h.running

end RecoverySets

theorem Holds.dropPayment (h : Holds issuer flight gone s)
    (hr : s.paymentLedger.lookup r = some a) (hsets : s.paymentRecoverySets.lookup r = none) :
    Holds issuer (flight + a.worth) (r :: gone)
      { s with paymentLedger := s.paymentLedger.erase r } := by
  have hlive : s.paymentLedger.has r = true := by simp [Table.has, hr]
  have hsum : ∀ c, Ledger.payments { s with paymentLedger := s.paymentLedger.erase r } c +
      a.worth c = s.payments c := fun c => Table.sumOver_erase_some hr
  constructor
  case balances => exact h.balances
  case payments =>
    intro r' a' hr'
    simp only [Table.lookup_erase] at hr'
    split at hr'
    case isTrue => cases hr'
    case isFalse => exact h.payments r' a' hr'
  case numbered =>
    rintro r' (hr' | hr')
    · refine h.numbered r' (.inl ?_)
      simp only [Table.has, Table.lookup_erase] at hr'
      split at hr'
      case isTrue => cases hr'
      case isFalse => exact hr'
    · rcases List.mem_cons.mp hr' with rfl | hr'
      · exact h.numbered r' (.inl hlive)
      · exact h.numbered r' (.inr hr')
  case pursesNumbered => exact h.pursesNumbered
  case mintPurse => exact h.mintPurse
  case recoverable =>
    intro r' q hq
    obtain ⟨hlive', hst⟩ := h.recoverable r' q hq
    have hne : r' ≠ r := by
      rintro rfl
      rw [hsets] at hq
      cases hq
    exact ⟨by simpa [Table.has, hne] using hlive', hst⟩
  case recovered => exact h.recovered
  case nodup => exact h.nodup
  case noSets => exact h.noSets
  case consumed_nodup =>
    refine List.nodup_cons.mpr ⟨fun hmem => ?_, h.consumed_nodup⟩
    rw [h.consumed_dead r hmem] at hr
    cases hr
  case consumed_dead =>
    intro r' hr'
    simp only [Table.lookup_erase]
    split
    case isTrue => rfl
    case isFalse hne => exact h.consumed_dead r' ((List.mem_cons.mp hr').resolve_left hne)
  case conserved =>
    intro c
    have h₁ := h.conserved c
    have h₂ := hsum c
    change s.balances c + Ledger.payments { s with paymentLedger := _ } c + s.burned c +
      (flight c + a.worth c) = s.minted c
    omega
  case single =>
    intro hu c
    have h₁ := h.single hu c
    have h₂ := hsum c
    change s.balances c + Ledger.payments { s with paymentLedger := _ } c +
      (flight c + a.worth c) ≤ 1
    omega
  case running => exact h.running

theorem Holds.addPayment (h : Holds issuer a.worth gone s) (ha : issuer.Proper a)
    (hnew : s.paymentLedger.lookup r = none) (hgone : r ∉ gone ++ s.consumed)
    (hn : ∃ n < s.nextPayment, r = .payment n) :
    Holds issuer 0 gone { s with paymentLedger := s.paymentLedger.insert r a } := by
  have hsum : ∀ c, Ledger.payments { s with paymentLedger := s.paymentLedger.insert r a } c =
      s.payments c + a.worth c := fun c => Table.sumOver_insert_none hnew
  constructor
  case balances => exact h.balances
  case payments =>
    intro r' a' hr'
    simp only [Table.lookup_insert] at hr'
    split at hr'
    case isTrue =>
      cases hr'
      exact ha
    case isFalse => exact h.payments r' a' hr'
  case numbered =>
    rintro r' (hr' | hr')
    · by_cases hrr : r' = r
      · exact hrr ▸ hn
      · exact h.numbered r' (.inl (by simpa [Table.has, hrr] using hr'))
    · exact h.numbered r' (.inr hr')
  case pursesNumbered => exact h.pursesNumbered
  case mintPurse => exact h.mintPurse
  case recoverable =>
    intro r' q hq
    obtain ⟨hlive', hst⟩ := h.recoverable r' q hq
    refine ⟨?_, hst⟩
    simp only [Table.has, Table.lookup_insert]
    split
    case isTrue => rfl
    case isFalse => exact hlive'
  case recovered => exact h.recovered
  case nodup => exact h.nodup
  case noSets => exact h.noSets
  case consumed_nodup => exact h.consumed_nodup
  case consumed_dead =>
    intro r' hr'
    have hne : r' ≠ r := by
      rintro rfl
      exact hgone hr'
    simp only [Table.lookup_insert, if_neg hne]
    exact h.consumed_dead r' hr'
  case conserved =>
    intro c
    have h₁ := h.conserved c
    have h₂ := hsum c
    change s.balances c + Ledger.payments { s with paymentLedger := _ } c + s.burned c + 0 =
      s.minted c
    omega
  case single =>
    intro hu c
    have h₁ := h.single hu c
    have h₂ := hsum c
    change s.balances c + Ledger.payments { s with paymentLedger := _ } c + 0 ≤ 1
    omega
  case running => exact h.running

/-! ## The steps of the methods -/

omit [DecidableEq β] [DecidableEq κ] in
theorem KeepsPurses.trans {u : Ledger β κ} (h : KeepsPurses s t) (h' : KeepsPurses t u) :
    KeepsPurses s u :=
  ⟨h'.1.trans h.1, fun p => (h'.2 p).trans (h.2 p)⟩

theorem deletePayment_spec (h : Holds issuer flight gone s)
    (hr : s.paymentLedger.lookup r = some a) :
    Wp (deletePayment r) (fun _ t => Holds issuer (flight + a.worth) (r :: gone) t ∧
      KeepsPurses s t ∧ t.balanceOf = s.balanceOf ∧ t.events = s.events) (fun _ _ => False) s := by
  have hlive : s.paymentLedger.has r = true := by simp [Table.has, hr]
  simp only [deletePayment, wp_bind, wp_get, hlive, not_true_eq_false, if_false, wp_modify]
  cases hset : s.paymentRecoverySets.lookup r with
  | none => exact ⟨h.dropPayment hr hset, ⟨rfl, fun _ => rfl⟩, rfl, rfl⟩
  | some p =>
    obtain ⟨-, st, hp, hmem⟩ := h.recoverable r p hset
    have hdrop : Holds issuer flight gone (s.withRecoverySet p st (st.recoverySet.erase r)
        (s.paymentRecoverySets.erase r)) := by
      refine h.withRecoverySet hp ((h.nodup p st hp).erase r) (fun hno => ?_) ?_ ?_ ?_
      · rw [h.noSets hno p st hp]
        rfl
      · intro r' q hq
        rw [Table.lookup_erase] at hq
        split at hq
        case isTrue => cases hq
        case isFalse hne =>
          obtain ⟨hlive', st', hq', hmem'⟩ := h.recoverable r' q hq
          refine ⟨hlive', ?_⟩
          split
          case isTrue hqp =>
            rw [hqp, hp] at hq'
            cases hq'
            exact (List.mem_erase_of_ne hne).mpr hmem'
          case isFalse => exact hq
      · intro r' hr'
        obtain ⟨hne, hr'⟩ := ((h.nodup p st hp).mem_erase_iff).mp hr'
        rw [Table.lookup_erase, if_neg hne]
        exact h.recovered r' p st hp hr'
      · intro r' q hqp hq
        have hne : r' ≠ r := by
          rintro rfl
          rw [hset] at hq
          exact hqp (Option.some.inj hq).symm
        rw [Table.lookup_erase, if_neg hne]
        exact hq
    simp only [wp_modify, deleteFromRecoverySet, getPurse, wp_bind, wp_get, hp, orThrow,
      wp_pure, hmem, if_true, setPurse]
    exact ⟨hdrop.dropPayment hr (by simp [Ledger.withRecoverySet]),
      keepsPurses_withRecoverySet (s.paymentRecoverySets.erase r) hp,
      balanceOf_withRecoverySet (s.paymentRecoverySets.erase r) hp, trivial⟩

section Lawful

variable (hl : issuer.lib.Lawful)

include hl

theorem increment_spec (h : Holds issuer a.worth gone s) (ha : issuer.Proper a)
    (hp : s.purses.lookup p = some st) :
    Wp (increment issuer p a) (fun _ t => Holds issuer 0 gone t ∧ KeepsPurses s t ∧
      t.events = s.events ∧ t.balanceOf p = s.balanceOf p + a.worth) (fun _ _ => False) s := by
  have hfit : issuer.assetKind.Unique → ∀ c, st.currentBalance.worth c + a.worth c ≤ 1 := by
    intro hu c
    have h₁ := h.single hu c
    have h₂ : st.currentBalance.worth c ≤ s.balances c :=
      Table.le_sumOver (f := fun _ state => state.currentBalance.worth c) hp
    omega
  obtain ⟨sum, hsum⟩ := Option.isSome_iff_exists.mp
    (AmountMath.add_isSome hl (h.balances p st hp).valid ha.valid hfit)
  obtain ⟨hproper, hworth⟩ := (h.balances p st hp).add hl ha hsum
  simp only [increment, getAmount, getPurse, wp_bind, wp_get, hp, orThrow, wp_pure, hsum,
    setCurrentBalance, hproper.shape, if_true, setPurse, wp_modify]
  refine ⟨h.setBalance hp hproper fun c => ?_, ⟨rfl, Table.has_insert_of_lookup hp _⟩, trivial, ?_⟩
  · simp only [hworth, Pi.add_apply, Pi.zero_apply]
    omega
  · funext c
    simp [Ledger.balanceOf, hp, hworth]

theorem decrement_spec (h : Holds issuer 0 gone s) (ha : issuer.Proper a)
    (hp : s.purses.lookup p = some st) :
    Wp (decrement issuer p a)
      (fun enough t => if enough then
        Holds issuer a.worth gone t ∧ KeepsPurses s t ∧ t.events = s.events ∧
          t.balanceOf p + a.worth = s.balanceOf p ∧ t.paymentLedger = s.paymentLedger ∧
          t.nextPayment = s.nextPayment
      else t = s ∧ ¬ a.worth ≤ s.balanceOf p)
      (fun _ _ => False) s := by
  have hst := h.balances p st hp
  have hbal : s.balanceOf p = st.currentBalance.worth := by
    funext c
    simp [Ledger.balanceOf, hp]
  obtain ⟨enough, hgte, hiff⟩ := AmountMath.isGTE_valid hl hst.valid ha.valid
  simp only [decrement, getAmount, getPurse, wp_bind, wp_get, hp, orThrow, wp_pure, hgte]
  cases enough with
  | false =>
    refine ⟨rfl, fun hle => ?_⟩
    rw [hbal] at hle
    exact Bool.false_ne_true (hiff.mpr hle)
  | true =>
    have hle := hiff.mp rfl
    obtain ⟨difference, hsub⟩ := Option.isSome_iff_exists.mp
      (AmountMath.subtract_isSome hl hst.valid ha.valid hle)
    obtain ⟨hproper, hworth⟩ := hst.subtract hl ha hsub
    simp only [if_true, wp_bind, wp_get, hp, orThrow, wp_pure, hsub, setCurrentBalance,
      hproper.shape, getPurse, setPurse, wp_modify]
    refine ⟨h.setBalance hp hproper fun c => ?_, ⟨rfl, Table.has_insert_of_lookup hp _⟩, trivial, ?_,
      trivial, trivial⟩
    · simp only [Pi.zero_apply, ← hworth, Pi.add_apply]
      omega
    · rw [hbal, ← hworth]
      funext c
      simp [Ledger.balanceOf]

omit hl in
theorem makePayment_spec (h : Holds issuer flight gone s) :
    Wp makePayment (fun r t => r = .payment s.nextPayment ∧
      t = { s with nextPayment := s.nextPayment + 1 } ∧ Holds issuer flight gone t)
      (fun _ _ => False) s := by
  simp only [makePayment, wp_bind, wp_get, wp_modify, wp_pure, true_and]
  refine { h with numbered := fun r hr => ?_ }
  obtain ⟨n, hn, hr⟩ := h.numbered r hr
  exact ⟨n, Nat.lt_succ_of_lt hn, hr⟩

omit hl in
/-- A payment whose number was just drawn is neither live nor used up. -/
theorem fresh_of_makePayment (h : Holds issuer flight gone s) :
    s.paymentLedger.lookup (.payment s.nextPayment) = none ∧
      .payment s.nextPayment ∉ gone ++ s.consumed := by
  have hnot : ∀ hr : s.paymentLedger.has (.payment s.nextPayment) = true ∨
      .payment s.nextPayment ∈ gone ++ s.consumed, False := by
    intro hr
    obtain ⟨n, hn, heq⟩ := h.numbered _ hr
    cases heq
    exact Nat.lt_irrefl _ hn
  refine ⟨?_, fun hr => hnot (.inr hr)⟩
  cases hl : s.paymentLedger.lookup (.payment s.nextPayment) with
  | none => rfl
  | some a => exact (hnot (.inl (by simp [Table.has, hl]))).elim

theorem initPayment_spec (h : Holds issuer a.worth gone s) (ha : issuer.Proper a)
    (hnew : s.paymentLedger.lookup r = none) (hgone : r ∉ gone ++ s.consumed)
    (hn : ∃ n < s.nextPayment, r = .payment n) {optRecoverySet : Option PurseID}
    (hset : ∀ p, optRecoverySet = some p →
      issuer.recoverySetsState = .hasRecoverySets ∧ s.purses.has p = true) :
    Wp (initPayment issuer r a optRecoverySet) (fun _ t => Holds issuer 0 gone t ∧
      KeepsPurses s t ∧ t.balanceOf = s.balanceOf ∧ t.events = s.events ∧
        t.paymentLedger = s.paymentLedger.insert r a) (fun _ _ => False) s := by
  have hadd := h.addPayment ha hnew hgone hn
  have hdead : s.paymentLedger.has r = false := by simp [Table.has, hnew]
  have hinit : ∀ t : Ledger β κ, t.paymentLedger = s.paymentLedger →
      Wp (paymentLedgerInit issuer r a)
        (fun _ u => u = { t with paymentLedger := s.paymentLedger.insert r a })
        (fun _ _ => False) t := by
    intro t ht
    simp [paymentLedgerInit, ht, hdead, ha.shape]
  cases optRecoverySet with
  | none =>
    simp only [initPayment, Option.isSome_none, Bool.false_eq_true, and_false, if_false]
    refine wp_mono (hinit s rfl) ?_ fun _ _ he => he
    rintro _ _ rfl
    exact ⟨hadd, ⟨rfl, fun _ => rfl⟩, rfl, rfl, rfl⟩
  | some p =>
    obtain ⟨hhas, hp⟩ := hset p rfl
    obtain ⟨st, hp⟩ := Option.isSome_iff_exists.mp hp
    have hno : ¬ issuer.recoverySetsState = .noRecoverySets := by
      rw [hhas]
      intro h
      cases h
    obtain ⟨empty, hempty, -⟩ := AmountMath.isEmpty_valid hl ha.valid
    have hnotset : s.paymentRecoverySets.lookup r = none := by
      cases hq : s.paymentRecoverySets.lookup r with
      | none => rfl
      | some q =>
        rw [(h.recoverable r q hq).1] at hdead
        cases hdead
    have hnotmem : r ∉ st.recoverySet := by
      intro hmem
      rw [h.recovered r p st hp hmem] at hnotset
      cases hnotset
    simp only [initPayment, hno, false_and, if_false, orThrow, hempty, wp_bind, wp_pure]
    refine wp_ite (fun _ => ?_) fun _ => ?_
    · simp only [wp_bind, addToRecoverySet, getPurse, wp_get, hp, orThrow, wp_pure, hnotmem,
        if_false, setPurse, wp_modify, Table.has, hnotset, Option.isSome_none, Bool.false_eq_true]
      refine wp_mono (hinit _ rfl) ?_ fun _ _ he => he
      rintro _ _ rfl
      refine ⟨?_, keepsPurses_withRecoverySet (s.paymentRecoverySets.insert r p) hp,
        balanceOf_withRecoverySet (s.paymentRecoverySets.insert r p) hp, rfl, rfl⟩
      refine hadd.withRecoverySet hp ?_ (fun hno' => absurd hno' hno) ?_ ?_ ?_
      · exact List.nodup_append.mpr ⟨h.nodup p st hp, List.nodup_singleton r, fun x hx y hy => by
          rintro rfl
          exact hnotmem (List.mem_singleton.mp hy ▸ hx)⟩
      · intro r' q hq
        rw [Table.lookup_insert] at hq
        split at hq
        case isTrue hrr =>
          cases hq
          exact ⟨by simp [Table.has, hrr], by simp [hrr]⟩
        case isFalse hrr =>
          obtain ⟨hlive, st', hq', hmem⟩ := hadd.recoverable r' q hq
          refine ⟨hlive, ?_⟩
          split
          case isTrue hqp =>
            have hst : s.purses.lookup q = some st' := hq'
            rw [hqp, hp] at hst
            cases hst
            exact List.mem_append_left _ hmem
          case isFalse => exact hq
      · intro r' hr'
        rw [Table.lookup_insert]
        split
        case isTrue => rfl
        case isFalse hrr =>
          have hmem : r' ∈ st.recoverySet := by
            simpa [hrr] using hr'
          exact h.recovered r' p st hp hmem
      · intro r' q _ hq
        have hrr : r' ≠ r := by
          rintro rfl
          have hq' : s.paymentRecoverySets.lookup r' = some q := hq
          rw [hnotset] at hq'
          cases hq'
        rw [Table.lookup_insert, if_neg hrr]
        exact hq
    · refine wp_mono (hinit s rfl) ?_ fun _ _ he => he
      rintro _ _ rfl
      exact ⟨hadd, ⟨rfl, fun _ => rfl⟩, rfl, rfl, rfl⟩

omit [DecidableEq β] [DecidableEq κ] in
omit hl in
/-- Past the commit point nothing throws, so the ledger is not shut down. -/
theorem wp_orShutdown {m : LedgerM β κ Unit} {Q : Ledger β κ → Prop}
    {E : LedgerFault → Ledger β κ → Prop}
    (hm : Wp m (fun _ t => Q t) (fun _ _ => False) s) :
    Wp (orShutdown issuer m) (fun _ t => Q t) E s := by
  simp only [orShutdown, wp_bind, wp_attempt, wp_pure]
  exact wp_mono hm (fun _ _ ht => ht) fun _ _ he => he.elim

omit [DecidableEq β] [DecidableEq κ] in
omit hl in
theorem consumed_noteEvent (s : Ledger β κ) (event : AssetEvent β κ) :
    Ledger.consumed { s with events := s.events ++ [event] } =
      s.consumed ++ event.consumed.toList := by
  cases h : event.consumed <;> simp [Ledger.consumed, h]

omit hl in
/-- The event that uses up the payment in flight closes the books. -/
theorem Holds.noteConsumed {event : AssetEvent β κ} (h : Holds issuer flight [r] s)
    (hc : event.consumed = some r) (hm : event.mintedWorth = 0)
    (hb : event.burnedWorth = flight) :
    Holds issuer 0 [] { s with events := s.events ++ [event] } := by
  have hconsumed := consumed_noteEvent s event
  rw [hc] at hconsumed
  have hperm : (s.consumed ++ [r]).Perm ([r] ++ s.consumed) := List.perm_append_comm
  constructor
  case balances => exact h.balances
  case payments => exact h.payments
  case numbered =>
    intro q hq
    refine h.numbered q (hq.imp_right fun hq => ?_)
    rw [List.nil_append, hconsumed] at hq
    exact hperm.mem_iff.mp hq
  case pursesNumbered => exact h.pursesNumbered
  case mintPurse => exact h.mintPurse
  case recoverable => exact h.recoverable
  case recovered => exact h.recovered
  case nodup => exact h.nodup
  case noSets => exact h.noSets
  case consumed_nodup =>
    rw [List.nil_append, hconsumed]
    exact hperm.nodup_iff.mpr h.consumed_nodup
  case consumed_dead =>
    intro q hq
    rw [List.nil_append, hconsumed] at hq
    exact h.consumed_dead q (hperm.mem_iff.mp hq)
  case conserved =>
    intro c
    have h₁ := h.conserved c
    have h₂ : Ledger.burned { s with events := s.events ++ [event] } c = s.burned c + flight c := by
      simp [Ledger.burned, hb]
    have h₃ : Ledger.minted { s with events := s.events ++ [event] } c = s.minted c := by
      simp [Ledger.minted, hm]
    change s.balances c + s.payments c + Ledger.burned { s with events := _ } c + 0 =
      Ledger.minted { s with events := _ } c
    omega
  case single =>
    intro hu c
    have h₁ := h.single hu c
    change s.balances c + s.payments c + 0 ≤ 1
    omega
  case running => exact h.running

omit hl in
/-- Minting puts new assets in flight. -/
theorem Holds.noteMinted (h : Holds issuer 0 gone s)
    (hnew : issuer.assetKind.Unique → ∀ c, s.balances c + s.payments c + a.worth c ≤ 1) :
    Holds issuer a.worth gone { s with events := s.events ++ [.minted a] } := by
  have hconsumed : Ledger.consumed { s with events := s.events ++ [.minted a] } = s.consumed := by
    rw [consumed_noteEvent]
    simp [AssetEvent.consumed]
  constructor
  case balances => exact h.balances
  case payments => exact h.payments
  case numbered =>
    intro q hq
    rw [hconsumed] at hq
    exact h.numbered q hq
  case pursesNumbered => exact h.pursesNumbered
  case mintPurse => exact h.mintPurse
  case recoverable => exact h.recoverable
  case recovered => exact h.recovered
  case nodup => exact h.nodup
  case noSets => exact h.noSets
  case consumed_nodup =>
    rw [hconsumed]
    exact h.consumed_nodup
  case consumed_dead =>
    rw [hconsumed]
    exact h.consumed_dead
  case conserved =>
    intro c
    have h₁ := h.conserved c
    have h₂ : Ledger.burned { s with events := s.events ++ [.minted a] } c = s.burned c := by
      simp [Ledger.burned, AssetEvent.burnedWorth]
    have h₃ : Ledger.minted { s with events := s.events ++ [.minted a] } c =
        s.minted c + a.worth c := by
      simp [Ledger.minted, AssetEvent.mintedWorth]
    have h₄ : (0 : Option κ → Nat) c = 0 := rfl
    change s.balances c + s.payments c + Ledger.burned { s with events := _ } c + a.worth c =
      Ledger.minted { s with events := _ } c
    omega
  case single => exact hnew
  case running => exact h.running

omit [DecidableEq β] [DecidableEq κ] in
omit hl in
theorem getLivePayment_spec (r : Remotable) :
    Wp (getLivePayment r) (fun a t => t = s ∧ s.paymentLedger.lookup r = some a)
      (fun _ t => t = s) s := by
  simp only [getLivePayment, wp_bind, wp_get]
  cases s.paymentLedger.lookup r with
  | none => exact rfl
  | some a => exact ⟨rfl, rfl⟩

omit [DecidableEq β] [DecidableEq κ] in
omit hl in
theorem assertAmountConsistent_spec (optAmountShape : Option (Amount β κ → Bool)) :
    Wp (assertAmountConsistent a optAmountShape) (fun _ t => t = s) (fun _ t => t = s) s := by
  cases optAmountShape with
  | none => exact rfl
  | some matching => exact wp_ite (fun _ => rfl) fun _ => rfl

omit [DecidableEq β] [DecidableEq κ] in
omit hl in
theorem paymentArg_spec (specimen : Specimen β κ) :
    Wp (paymentArg specimen) (fun r t => t = s ∧ specimen = .remotable r) (fun _ t => t = s) s := by
  cases specimen with
  | remotable r => exact ⟨rfl, rfl⟩
  | _ => exact rfl

omit [DecidableEq β] [DecidableEq κ] in
omit hl in
theorem patternArg_spec (arg : PatternArg β κ) :
    Wp (patternArg arg) (fun _ t => t = s) (fun _ t => t = s) s := by
  cases arg <;> exact rfl

omit [DecidableEq κ] in
omit hl in
theorem amountArg_spec (specimen : Specimen β κ) :
    Wp (issuer.amountArg specimen)
      (fun a t => t = s ∧ specimen = .amount a ∧ issuer.amountShape a = true)
      (fun _ t => t = s ∧ ∀ a, specimen = .amount a → issuer.amountShape a = false) s := by
  cases specimen with
  | amount a =>
    refine wp_ite (fun ha => ⟨rfl, rfl, ha⟩) fun ha => ⟨rfl, ?_⟩
    rintro _ ⟨⟩
    simpa using ha
  | _ => exact ⟨rfl, fun _ h => by cases h⟩

omit [DecidableEq κ] in
omit hl in
theorem returnsAmount_spec (ha : issuer.amountShape a = true) :
    Wp (issuer.returnsAmount a) (fun b t => b = a ∧ t = s) (fun _ _ => False) s := by
  simp [Issuer.returnsAmount, ha]

theorem proper_of_issued {newAmount : Specimen β κ} (h : issued issuer newAmount = some a) :
    issuer.Proper a := by
  cases newAmount with
  | amount b =>
    simp only [issued] at h
    split at h
    case isTrue hshape =>
      obtain ⟨hcoerce, -⟩ := Option.filter_eq_some_iff.mp h
      exact (Issuer.proper_coerce hl hshape hcoerce).1
    case isFalse => cases h
  | _ => cases h

/-- A deposit moves all of a live payment into the purse and uses the payment
up, or changes nothing. -/
theorem depositInternal_spec (h : Holds issuer 0 [] s) (hp : s.purses.has p = true)
    (optAmountShape : Option (Amount β κ → Bool)) :
    Wp (depositInternal issuer p r optAmountShape)
      (fun a t => Holds issuer 0 [] t ∧ KeepsPurses s t ∧ issuer.Proper a ∧
        s.paymentLedger.lookup r = some a ∧ t.balanceOf p = s.balanceOf p + a.worth)
      (fun _ t => t = s) s := by
  simp only [depositInternal, wp_bind]
  refine wp_mono (getLivePayment_spec r) ?_ fun _ _ he => he
  rintro a _ ⟨rfl, hr⟩
  refine wp_mono (assertAmountConsistent_spec optAmountShape) ?_ fun _ _ he => he
  rintro _ _ rfl
  have ha := h.payments r a hr
  refine wp_orShutdown ?_
  simp only [wp_bind]
  refine wp_mono (deletePayment_spec h hr) ?_ fun _ _ he => he
  rintro _ t ⟨ht, hkeep, hbal, -⟩
  obtain ⟨st, hst⟩ := Option.isSome_iff_exists.mp ((hkeep.2 p).trans hp)
  rw [zero_add] at ht
  refine wp_mono (increment_spec hl ht ha hst) ?_ fun _ _ he => he
  rintro _ u ⟨hu, hkeep', -, hbal'⟩
  refine ⟨hu.noteConsumed rfl rfl rfl, hkeep.trans hkeep', ha, hr, ?_⟩
  rw [← hbal]
  exact hbal'

theorem deposit_spec (h : Holds issuer 0 [] s) (hp : s.purses.has p = true)
    (srcPayment : Specimen β κ) (optAmountShape : PatternArg β κ) :
    Wp (deposit issuer p srcPayment optAmountShape)
      (fun a t => Holds issuer 0 [] t ∧ KeepsPurses s t ∧ issuer.Proper a ∧
        ∃ r, srcPayment = .remotable r ∧ s.paymentLedger.lookup r = some a ∧
          t.balanceOf p = s.balanceOf p + a.worth)
      (fun _ t => t = s) s := by
  simp only [deposit, wp_bind]
  refine wp_mono (paymentArg_spec srcPayment) ?_ fun _ _ he => he
  rintro r _ ⟨rfl, rfl⟩
  refine wp_mono (patternArg_spec optAmountShape) ?_ fun _ _ he => he
  rintro pattern _ rfl
  refine wp_mono (depositInternal_spec hl h hp pattern) ?_ fun _ _ he => he
  rintro a t ⟨ht, hkeep, ha, hr, hbal⟩
  refine wp_mono (returnsAmount_spec ha.shape) ?_ fun _ _ he => he.elim
  rintro _ _ ⟨rfl, rfl⟩
  exact ⟨ht, hkeep, ha, r, rfl, hr, hbal⟩

omit hl in
theorem maybeRecoverySet_spec (h : Holds issuer flight gone s) (hp : s.purses.has p = true) :
    Wp (maybeRecoverySet issuer p) (fun q t => t = s ∧ ∀ p', q = some p' →
      issuer.recoverySetsState = .hasRecoverySets ∧ s.purses.has p' = true)
      (fun _ _ => False) s := by
  obtain ⟨st, hst⟩ := Option.isSome_iff_exists.mp hp
  simp only [maybeRecoverySet, getPurse, wp_bind, wp_get, hst, orThrow, wp_pure]
  cases hrs : issuer.recoverySetsState with
  | hasRecoverySets =>
    refine ⟨rfl, ?_⟩
    rintro _ ⟨⟩
    exact ⟨rfl, hp⟩
  | noRecoverySets =>
    have hnil := h.noSets hrs p st hst
    simp [hnil]

/-- A withdrawal moves the amount out of the purse into a new payment. It fails
only for an argument that is no amount of the brand, or that the balance does
not cover; then only a payment number is used up. -/
theorem withdraw_spec (h : Holds issuer 0 [] s) (hp : s.purses.has p = true)
    (amount : Specimen β κ) :
    Wp (withdraw issuer p amount)
      (fun r t => Holds issuer 0 [] t ∧ KeepsPurses s t ∧
        ∃ a, issuer.Proper a ∧ t.balanceOf p + a.worth = s.balanceOf p ∧
          (∀ b, amount = .amount b → a.worth = b.worth) ∧
          t.paymentLedger.lookup r = some a)
      (fun _ t => Holds issuer 0 [] t ∧ KeepsPurses s t ∧ t.balanceOf = s.balanceOf ∧
        ∀ b, amount = .amount b → issuer.Proper b → ¬ b.worth ≤ s.balanceOf p) s := by
  simp only [withdraw, wp_bind]
  refine wp_mono (amountArg_spec amount) ?_ ?_
  rotate_left
  · rintro _ s ⟨rfl, hbad⟩
    refine ⟨h, ⟨rfl, fun _ => rfl⟩, rfl, fun b hb hproper => ?_⟩
    exact absurd hproper.shape (by simp [hbad b hb])
  rintro b s ⟨rfl, rfl, hshape⟩
  refine wp_mono (maybeRecoverySet_spec h hp) ?_ fun _ _ he => he.elim
  rintro optRecoverySet s ⟨rfl, hset⟩
  simp only [withdrawInternal, wp_bind]
  cases hcoerce : AmountMath.coerce issuer.lib issuer.brand b with
  | none =>
    refine ⟨h, ⟨rfl, fun _ => rfl⟩, rfl, ?_⟩
    rintro _ ⟨⟩ hproper
    rw [AmountMath.coerce_valid hproper.valid] at hcoerce
    cases hcoerce
  | some a =>
    obtain ⟨ha, hworth⟩ := Issuer.proper_coerce hl hshape hcoerce
    simp only [orThrow, wp_pure]
    refine wp_mono (makePayment_spec h) ?_ fun _ _ he => he.elim
    rintro _ t ⟨rfl, rfl, ht⟩
    obtain ⟨hnew, hunused⟩ := fresh_of_makePayment h
    obtain ⟨st, hst⟩ := Option.isSome_iff_exists.mp hp
    refine wp_mono (decrement_spec hl ht ha hst) ?_ fun _ _ he => he.elim
    intro enough u hu
    cases enough with
    | false =>
      obtain ⟨rfl, hle⟩ := hu
      simp only [Bool.false_eq_true, not_false_eq_true, if_true]
      refine ⟨ht, ⟨rfl, fun _ => rfl⟩, rfl, ?_⟩
      rintro _ ⟨⟩ hproper
      rw [hworth] at hle
      exact hle
    | true =>
      obtain ⟨hholds, hkeep, hevents, hbal, hpay, hnext⟩ := hu
      simp only [not_true_eq_false, if_false, wp_bind]
      have hconsumed : u.consumed = s.consumed := by
        simp only [Ledger.consumed, hevents]
      refine wp_orShutdown (wp_mono (initPayment_spec hl hholds ha ?_ ?_ ?_ ?_) ?_ fun _ _ he => he)
      · rw [hpay]
        exact hnew
      · rw [hconsumed]
        exact hunused
      · exact ⟨s.nextPayment, by rw [hnext]; exact Nat.lt_succ_self _, rfl⟩
      · intro p' hp'
        exact ⟨(hset p' hp').1, (hkeep.2 p').trans (hset p' hp').2⟩
      · rintro _ v ⟨hv, hkeep', hbal', -, hpay'⟩
        refine ⟨hv, hkeep.trans hkeep', a, ha, ?_, ?_, ?_⟩
        · rw [hbal']
          exact hbal
        · rintro _ ⟨⟩
          exact hworth
        · rw [hpay', Table.lookup_insert, if_pos rfl]

end Lawful

end Specs

end AgoricSdk.ERTP
