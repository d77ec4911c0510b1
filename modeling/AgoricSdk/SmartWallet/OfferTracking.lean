import AgoricSdk.SmartWallet.Offers

/-!
How the wallet keeps track of its offers. The check of an id looks at what is stored under its
text, while an offer is recorded turns after the check and under the id as it was given. Where no
offer slips through that window, one offer at most is in progress for each text, the live tables
hold the offers from their seating to the report of their wants, and every outcome is watched once
more for each rejection that can be retried.
-/

namespace AgoricSdk.SmartWallet

open TransitionSystem

section Defs

variable {ν : Type} [DecidableEq ν]

namespace Offer

/-- The call of `executeOffer` has not come to an answer of Zoe. -/
def settingUp (o : Offer ν) : Bool :=
  match o.stage with
  | .starting | .withdrawing | .offering => true
  | .failed | .seated | .untracked => false

def isSeated (o : Offer ν) : Bool :=
  match o.stage with
  | .seated | .untracked => true
  | .starting | .withdrawing | .offering | .failed => false

/-- Seated, and its wants have not been reported. -/
def isLive (o : Offer ν) : Bool := o.isSeated && !o.wantsReported

/-- The promises of the seat that are watched have settled and the reactions have run. -/
def finished (o : Offer ν) : Bool :=
  (o.watching .result).pending == 0 && (o.watching .numWants).pending == 0 &&
    (o.watching .payouts).pending == 0 && !o.depositing

/-- An offer that is not tracked is never done. -/
def inProgress (o : Offer ν) : Bool :=
  match o.stage with
  | .starting | .withdrawing | .offering | .untracked => true
  | .failed => false
  | .seated => !o.finished

end Offer

/-- What the watcher remembers after the rejections. -/
def lastRetry : Option Reason → List Reason → Option Reason
  | prior, [] => prior
  | prior, reason :: reasons => lastRetry (isRetryableReason reason prior) reasons

/-- How many of the rejections can be retried. -/
def retryCount : Option Reason → List Reason → ℕ
  | _, [] => 0
  | prior, reason :: reasons =>
    (if (isRetryableReason reason prior).isSome then 1 else 0) +
      retryCount (isRetryableReason reason prior) reasons

/-- The table holds exactly the live offers, each under its id. -/
structure LiveTable (offers : List (Offer ν)) (t : Table (OfferId ν) ℕ) : Prop where
  live : ∀ i o, offers[i]? = some o → (t.lookup o.id = some i ↔ o.isLive = true)
  named : ∀ id i, t.lookup id = some i → ∃ o, offers[i]? = some o ∧ o.id = id

/-- One of the records of a continuing invitation under the key is of the offer. -/
def Wallet.HasRecords (s : Wallet ν) (key : Text) (i : ℕ) : Prop :=
  s.offerToUsedInvitation.lookup key = some i ∨ s.offerToInvitationMakers.lookup key = some i ∨
    s.offerToPublicSubscriberPaths.lookup key = some i

/-- Offers are tracked to their end. A text that is free again may be the id of a later offer, of
which the entries then are. -/
structure Wallet.Tracked (decimal : ν → Text) (s : Wallet ν) : Prop where
  unique : ∀ i j o p, s.offers[i]? = some o → s.offers[j]? = some p →
    o.id.toText decimal = p.id.toText decimal →
    o.inProgress = true ∨ s.HasRecords (o.id.toText decimal) i →
    p.inProgress = true ∨ s.HasRecords (p.id.toText decimal) j → i = j
  liveOffers : LiveTable s.offers s.liveOffers
  liveOfferSeats : LiveTable s.offers s.liveOfferSeats
  /-- One watch of each outcome from the seating, and one more for each retryable rejection. -/
  retried : ∀ (i : ℕ) (o : Offer ν) outcome, s.offers[i]? = some o →
    (o.watching outcome).pending ≤ 1 ∧
    (o.watching outcome).started = (if o.stage = .seated then 1 else 0) +
      retryCount none (o.watching outcome).rejections
  settled : ∀ i o, s.offers[i]? = some o → o.isSeated = true → o.finished = true →
    ∀ t ∈ [s.liveOffers, s.liveOfferSeats], t.lookup o.id ≠ some i ∧
      ((∀ p ∈ s.offers, p.id = o.id → p.inProgress = false) → t.has o.id = false)

/-- An id that the check lets through is not that of an offer which is being set up, is live under
a number, or has reported its wants with another outcome still to come; and the wants are not
rejected with a reason that ends their watch. -/
def orderly (decimal : ν → Text) (s : Wallet ν) : Action ν → Prop
  | .executeOffer id _ =>
    s.used (id.toText decimal) = true ∨
      ∀ o ∈ s.offers, o.id.toText decimal = id.toText decimal →
        o.settingUp = false ∧ (o.isLive = true → o.id.isString = true) ∧
          (o.wantsReported = true → o.finished = true)
  | .rejected i .numWants reason =>
    ∀ o ∈ s.offers[i]?, (isRetryableReason reason (o.watching .numWants).priorRetry).isSome = true
  | _ => True

instance (decimal : ν → Text) (s : Wallet ν) (a : Action ν) : Decidable (orderly decimal s a) := by
  unfold orderly
  split <;> infer_instance

end Defs

section Watches

theorem lastRetry_append (prior : Option Reason) (reasons : List Reason) (reason : Reason) :
    lastRetry prior (reasons ++ [reason]) = isRetryableReason reason (lastRetry prior reasons) := by
  induction reasons generalizing prior with
  | nil => rfl
  | cons r reasons ih => exact ih (isRetryableReason r prior)

theorem retryCount_append (prior : Option Reason) (reasons : List Reason) (reason : Reason) :
    retryCount prior (reasons ++ [reason]) = retryCount prior reasons +
      if (isRetryableReason reason (lastRetry prior reasons)).isSome then 1 else 0 := by
  induction reasons generalizing prior with
  | nil => exact Nat.add_comm _ _
  | cons r reasons ih =>
    rw [List.cons_append, retryCount, ih, ← Nat.add_assoc]
    rfl

/-- The watches of a seated offer agree with the rejections that there have been. -/
structure Watching.Sound (s : Watching) : Prop where
  pending_le : s.pending ≤ 1
  started : s.started = 1 + retryCount none s.rejections
  remembered : s.priorRetry = lastRetry none s.rejections

theorem Watching.sound_start : ({} : Watching).start.Sound :=
  ⟨by decide, rfl, rfl⟩

theorem Watching.Sound.settled {s : Watching} (h : s.Sound) : s.settled.Sound := by
  have hle := h.pending_le
  exact ⟨show s.pending - 1 ≤ 1 by omega, h.started, h.remembered⟩

theorem Watching.Sound.settled_pending {s : Watching} (h : s.Sound) : s.settled.pending = 0 := by
  have hle := h.pending_le
  exact show s.pending - 1 = 0 by omega

theorem Watching.Sound.needsRetry {s : Watching} (h : s.Sound) (reason : Reason) :
    if (isRetryableReason reason s.priorRetry).isSome then
      (s.settled.needsRetry reason).2.start.Sound
    else (s.settled.needsRetry reason).2.Sound := by
  have hpending := h.settled_pending
  have hcount := retryCount_append none s.rejections reason
  have hlast := lastRetry_append none s.rejections reason
  rw [← h.remembered] at hcount hlast
  have hstarted := h.started
  split
  case isTrue hretry =>
    rw [if_pos hretry] at hcount
    have hpending' : s.settled.pending + 1 ≤ 1 := by omega
    have hstarted' : s.started + 1 = 1 + retryCount none (s.rejections ++ [reason]) := by omega
    exact ⟨hpending', hstarted', hlast.symm⟩
  case isFalse hretry =>
    rw [if_neg hretry] at hcount
    have hpending' : s.settled.pending ≤ 1 := by omega
    have hstarted' : s.started = 1 + retryCount none (s.rejections ++ [reason]) := by omega
    exact ⟨hpending', hstarted', hlast.symm⟩

end Watches

section Offers

variable {ν : Type} {o o' : Offer ν}

/-- What is kept of an offer at each stage. -/
structure Offer.Sound (o : Offer ν) : Prop where
  recorded : o.stage ≠ .untracked
  unwatched : o.stage ≠ .seated →
    (∀ outcome, o.watching outcome = {}) ∧ o.wantsReported = false ∧ o.depositing = false
  watched : o.stage = .seated → ∀ outcome, (o.watching outcome).Sound
  reported : o.stage = .seated → (o.watching .numWants).pending = 0 → o.wantsReported = true

theorem Offer.Sound.seated_of_pending (h : o.Sound) {outcome : Outcome}
    (hpending : (o.watching outcome).pending ≠ 0) : o.stage = .seated := by
  by_contra hstage
  apply hpending
  rw [(h.unwatched hstage).1 outcome]

theorem Offer.Sound.seated_of_depositing (h : o.Sound) (hdepositing : o.depositing = true) :
    o.stage = .seated := by
  by_contra hstage
  rw [(h.unwatched hstage).2.2] at hdepositing
  cases hdepositing

theorem Offer.inProgress_of_seated (hstage : o.stage = .seated) : o.inProgress = !o.finished := by
  rw [inProgress, hstage]

theorem Offer.inProgress_of_settingUp (h : o.settingUp = true) : o.inProgress = true := by
  unfold settingUp at h
  unfold inProgress
  cases hstage : o.stage <;> rw [hstage] at h <;> first | rfl | cases h

theorem Offer.Sound.inProgress_of_pending (h : o.Sound) {outcome : Outcome}
    (hpending : (o.watching outcome).pending ≠ 0) : o.inProgress = true := by
  rw [inProgress_of_seated (h.seated_of_pending hpending), finished]
  cases outcome <;> simp [hpending]

theorem Offer.Sound.inProgress_of_depositing (h : o.Sound) (hdepositing : o.depositing = true) :
    o.inProgress = true := by
  rw [inProgress_of_seated (h.seated_of_depositing hdepositing), finished, hdepositing]
  simp

theorem Offer.isLive_of_seated (hstage : o.stage = .seated) : o.isLive = !o.wantsReported := by
  rw [isLive, isSeated, hstage, Bool.true_and]

theorem Offer.Sound.not_isLive (h : o.Sound) (hfinished : o.finished = true) :
    o.isLive = false := by
  cases hstage : o.stage with
  | starting | withdrawing | offering | failed => rw [isLive, isSeated, hstage, Bool.false_and]
  | untracked => exact absurd hstage h.recorded
  | seated =>
    simp only [finished, Bool.and_eq_true, beq_iff_eq] at hfinished
    rw [isLive_of_seated hstage, h.reported hstage hfinished.1.1.2]
    rfl

theorem Offer.Sound.inProgress_of_isLive (h : o.Sound) (hlive : o.isLive = true) :
    o.inProgress = true := by
  have hfinished : o.finished = false := by
    by_contra hne
    rw [h.not_isLive (Bool.not_eq_false _ ▸ hne)] at hlive
    cases hlive
  cases hstage : o.stage with
  | starting | withdrawing | offering | failed =>
    rw [isLive, isSeated, hstage, Bool.false_and] at hlive
    cases hlive
  | untracked => exact absurd hstage h.recorded
  | seated => rw [inProgress_of_seated hstage, hfinished, Bool.not_false]

theorem Offer.isLive_of_unseated (h : o.Sound) (hstage : o.stage ≠ .seated) :
    o.isLive = false := by
  cases hcase : o.stage with
  | starting | withdrawing | offering | failed => rw [isLive, isSeated, hcase, Bool.false_and]
  | untracked => exact absurd hcase h.recorded
  | seated => exact absurd hcase hstage

theorem Offer.Sound.moved (h : o.Sound) (hstage : o.stage ≠ .seated) {stage : Stage}
    (hseated : stage ≠ .seated) (hrecorded : stage ≠ .untracked) :
    Offer.Sound { o with stage } :=
  ⟨hrecorded, fun _ => h.unwatched hstage, (absurd · hseated), (absurd · hseated)⟩

theorem Offer.Sound.seat (h : o.Sound) (hstage : o.stage ≠ .seated) :
    Offer.Sound { o with
      stage := .seated, watching := fun outcome => (o.watching outcome).start } := by
  have hempty := (h.unwatched hstage).1
  constructor
  · exact nofun
  · exact (absurd rfl ·)
  · intro _ outcome
    change (o.watching outcome).start.Sound
    rw [hempty outcome]
    exact Watching.sound_start
  · intro _ hpending
    exact absurd hpending (Nat.succ_ne_zero _)

theorem Offer.Sound.react (h : o.Sound) (hstage : o.stage = .seated) {outcome : Outcome}
    {s : Watching} (hs : s.Sound) {wantsReported depositing : Bool}
    (hkept : o.wantsReported = true → wantsReported = true)
    (hreported : outcome = .numWants → s.pending = 0 → wantsReported = true) :
    Offer.Sound { o with
      watching := Function.update o.watching outcome s, wantsReported, depositing } := by
  constructor
  · exact h.recorded
  · exact (absurd hstage ·)
  · intro _ other
    change (Function.update o.watching outcome s other).Sound
    by_cases hother : other = outcome
    · rw [hother, Function.update_self]
      exact hs
    · rw [Function.update_of_ne hother]
      exact h.watched hstage other
  · intro _ hpending
    change (Function.update o.watching outcome s .numWants).pending = 0 at hpending
    by_cases houtcome : outcome = .numWants
    · rw [houtcome, Function.update_self] at hpending
      exact hreported houtcome hpending
    · rw [Function.update_of_ne (Ne.symm houtcome)] at hpending
      exact hkept (h.reported hstage hpending)

theorem Offer.Sound.settle (h : o.Sound) {outcome : Outcome}
    (hpending : (o.watching outcome).pending ≠ 0) {wantsReported depositing : Bool}
    (hkept : o.wantsReported = true → wantsReported = true)
    (hreported : outcome = .numWants → wantsReported = true) :
    Offer.Sound { Wallet.settle o outcome with wantsReported, depositing } := by
  have hstage := h.seated_of_pending hpending
  have hsettled := (h.watched hstage outcome).settled
  exact h.react hstage hsettled hkept fun heq _ => hreported heq

theorem Wallet.setOffer_addContinuingOffer (s : Wallet ν) (i : ℕ) (o : Offer ν) (key : Text)
    (hasPaths : Bool) : (s.setOffer i o).addContinuingOffer key i hasPaths =
      (s.addContinuingOffer key i hasPaths).setOffer i o := by
  unfold addContinuingOffer setOffer
  dsimp only
  split
  · rfl
  · split <;> rfl

theorem Wallet.addContinuingOffer_offers (s : Wallet ν) (i : ℕ) (key : Text) (hasPaths : Bool) :
    (s.addContinuingOffer key i hasPaths).offers = s.offers := by
  unfold addContinuingOffer
  dsimp only
  split
  · rfl
  · split <;> rfl

end Offers

section Invariants

variable {ν : Type} {decimal : ν → Text} {offers : List (Offer ν)} {i : ℕ} {o o' : Offer ν}

def AllSound (offers : List (Offer ν)) : Prop :=
  ∀ (i : ℕ) (o : Offer ν), offers[i]? = some o → o.Sound

/-- Two offers in progress do not have ids of the same text. -/
def OneInProgress (decimal : ν → Text) (offers : List (Offer ν)) : Prop :=
  ∀ (i j : ℕ) (o p : Offer ν), offers[i]? = some o → offers[j]? = some p →
    o.id.toText decimal = p.id.toText decimal → o.inProgress = true → p.inProgress = true → i = j

/-- The used invitation under a key is that of the one offer which may be in progress there. -/
structure UsedInvitations (decimal : ν → Text) (offers : List (Offer ν)) (t : Table Text ℕ) :
    Prop where
  named : ∀ key i, t.lookup key = some i →
    ∃ o, offers[i]? = some o ∧ o.id.toText decimal = key
  alone : ∀ (key : Text) (i j : ℕ) (p : Offer ν), t.lookup key = some i →
    offers[j]? = some p → p.id.toText decimal = key → p.inProgress = true → j = i

theorem getElem?_set_cases {j : ℕ} {p : Offer ν} (h : (offers.set i o')[j]? = some p) :
    (j = i ∧ p = o') ∨ (j ≠ i ∧ offers[j]? = some p) := by
  rw [List.getElem?_set] at h
  split at h
  case isTrue heq =>
    exact .inl ⟨heq.symm, (Option.some.inj (Option.ite_none_right_eq_some.mp h).2).symm⟩
  case isFalse hne => exact .inr ⟨Ne.symm hne, h⟩

theorem getElem?_set_of (ho : offers[i]? = some o) (o' : Offer ν) :
    (offers.set i o')[i]? = some o' :=
  List.getElem?_set_self (List.getElem?_eq_some_iff.mp ho).1

theorem getElem?_append_cases {j : ℕ} {p : Offer ν} (h : (offers ++ [o'])[j]? = some p) :
    (j = offers.length ∧ p = o') ∨ offers[j]? = some p := by
  rw [List.getElem?_append] at h
  split at h
  case isTrue => exact .inr h
  case isFalse hle =>
    rw [List.getElem?_singleton] at h
    obtain ⟨hzero, heq⟩ := Option.ite_none_right_eq_some.mp h
    exact .inl ⟨by omega, (Option.some.inj heq).symm⟩

theorem getElem?_append_of {j : ℕ} {p : Offer ν} (h : offers[j]? = some p) (o' : Offer ν) :
    (offers ++ [o'])[j]? = some p :=
  (List.getElem?_append_left (List.getElem?_eq_some_iff.mp h).1).trans h

theorem OneInProgress.set (h : OneInProgress decimal offers) (ho : offers[i]? = some o)
    (hprogress : o.inProgress = true) (hid : o'.id = o.id) :
    OneInProgress decimal (offers.set i o') := by
  intro j k p q hp hq htext hpp hqp
  obtain ⟨rfl, rfl⟩ | ⟨_, hp'⟩ := getElem?_set_cases hp
  · obtain ⟨rfl, rfl⟩ | ⟨_, hq'⟩ := getElem?_set_cases hq
    · rfl
    · exact h j k o q ho hq' (hid ▸ htext) hprogress hqp
  · obtain ⟨rfl, rfl⟩ | ⟨_, hq'⟩ := getElem?_set_cases hq
    · exact h j k p o hp' ho (hid ▸ htext) hpp hprogress
    · exact h j k p q hp' hq' htext hpp hqp

theorem UsedInvitations.set {t : Table Text ℕ} (h : UsedInvitations decimal offers t)
    (ho : offers[i]? = some o) (hprogress : o.inProgress = true) (hid : o'.id = o.id) :
    UsedInvitations decimal (offers.set i o') t := by
  constructor
  · intro key j hj
    obtain ⟨p, hp, hkey⟩ := h.named key j hj
    by_cases heq : j = i
    · subst heq
      rw [ho] at hp
      cases hp
      exact ⟨o', getElem?_set_of ho o', hid ▸ hkey⟩
    · exact ⟨p, (List.getElem?_set_ne (Ne.symm heq)).trans hp, hkey⟩
  · intro key j k p hj hp hkey hpp
    obtain ⟨rfl, rfl⟩ | ⟨_, hp'⟩ := getElem?_set_cases hp
    · exact h.alone key j k o hj ho (hid ▸ hkey) hprogress
    · exact h.alone key j k p hj hp' hkey hpp

theorem UsedInvitations.insert {t : Table Text ℕ} (h : UsedInvitations decimal offers t)
    (hunique : OneInProgress decimal offers) (ho : offers[i]? = some o)
    (hprogress : o.inProgress = true) :
    UsedInvitations decimal offers (t.insert (o.id.toText decimal) i) := by
  constructor
  · intro key j hj
    rw [Table.lookup_insert] at hj
    split at hj
    case isTrue hkey =>
      cases hj
      exact ⟨o, ho, hkey.symm⟩
    case isFalse => exact h.named key j hj
  · intro key j k p hj hp hkey hpp
    rw [Table.lookup_insert] at hj
    split at hj
    case isTrue htext =>
      cases hj
      exact hunique k i p o hp ho (hkey.trans htext) hpp hprogress
    case isFalse => exact h.alone key j k p hj hp hkey hpp

variable [DecidableEq ν] {t t' : Table (OfferId ν) ℕ}

theorem LiveTable.own (h : LiveTable offers t) (hsound : AllSound offers)
    (hunique : OneInProgress decimal offers) (ho : offers[i]? = some o)
    (hprogress : o.inProgress = true) :
    t.lookup o.id = if o.isLive = true then some i else none := by
  split
  case isTrue hlive => exact (h.live i o ho).mpr hlive
  case isFalse hlive =>
    cases hlookup : t.lookup o.id with
    | none => rfl
    | some j =>
      obtain ⟨p, hp, hid⟩ := h.named o.id j hlookup
      have hplive := (h.live j p hp).mp (hid ▸ hlookup)
      have hpp := (hsound j p hp).inProgress_of_isLive hplive
      have hij := hunique i j o p ho hp (hid ▸ rfl) hprogress hpp
      subst hij
      rw [ho] at hp
      cases hp
      exact absurd hplive hlive

theorem LiveTable.set (h : LiveTable offers t) (hsound : AllSound offers)
    (hunique : OneInProgress decimal offers) (ho : offers[i]? = some o)
    (hprogress : o.inProgress = true) (hid : o'.id = o.id)
    (hothers : ∀ id, id ≠ o.id → t'.lookup id = t.lookup id)
    (hown : t'.lookup o.id = if o'.isLive = true then some i else none) :
    LiveTable (offers.set i o') t' := by
  have hset := getElem?_set_of ho o'
  constructor
  · intro j p hp
    obtain ⟨rfl, rfl⟩ | ⟨hj, hp'⟩ := getElem?_set_cases hp
    · rw [hid, hown]
      split
      case isTrue hlive => exact iff_of_true rfl hlive
      case isFalse hlive => exact iff_of_false nofun hlive
    · by_cases hpid : p.id = o.id
      · have hplive : ¬ p.isLive = true := by
          intro hplive
          have hpp := (hsound j p hp').inProgress_of_isLive hplive
          exact hj (hunique j i p o hp' ho (hpid ▸ rfl) hpp hprogress)
        have hentry : t'.lookup p.id ≠ some j := by
          rw [hpid, hown]
          split
          · exact fun heq => hj (Option.some.inj heq).symm
          · exact nofun
        exact iff_of_false hentry hplive
      · rw [hothers p.id hpid]
        exact h.live j p hp'
  · intro id j hj
    by_cases heq : id = o.id
    · subst heq
      rw [hown] at hj
      obtain ⟨_, hij⟩ := Option.ite_none_right_eq_some.mp hj
      cases hij
      exact ⟨o', hset, hid⟩
    · rw [hothers id heq] at hj
      obtain ⟨p, hp, hpid⟩ := h.named id j hj
      have hji : j ≠ i := by
        rintro rfl
        rw [ho] at hp
        cases hp
        exact heq hpid.symm
      exact ⟨p, (List.getElem?_set_ne (Ne.symm hji)).trans hp, hpid⟩

structure WalletInv (decimal : ν → Text) (s : Wallet ν) : Prop where
  offers : AllSound s.offers
  unique : OneInProgress decimal s.offers
  liveOffers : LiveTable s.offers s.liveOffers
  liveOfferSeats : LiveTable s.offers s.liveOfferSeats
  used : UsedInvitations decimal s.offers s.offerToUsedInvitation
  makers : ∀ key i, s.offerToInvitationMakers.lookup key = some i →
    s.offerToUsedInvitation.lookup key = some i
  paths : ∀ key i, s.offerToPublicSubscriberPaths.lookup key = some i →
    s.offerToUsedInvitation.lookup key = some i
  awaiting : ∀ e ∈ s.awaitingPaths, s.offerToUsedInvitation.lookup e.1 = some e.2

end Invariants

section Steps

variable {ν : Type} [DecidableEq ν] {decimal : ν → Text} {s t : Wallet ν} {i : ℕ}
  {o o' : Offer ν}

/-- The tables of the continuing invitations. -/
abbrev Wallet.records (s : Wallet ν) :
    Table Text ℕ × Table Text ℕ × Table Text ℕ × List (Text × ℕ) :=
  (s.offerToUsedInvitation, s.offerToInvitationMakers, s.offerToPublicSubscriberPaths,
    s.awaitingPaths)

theorem WalletInv.advance (h : WalletInv decimal s) (ho : s.offers[i]? = some o)
    (hprogress : o.inProgress = true) (hid : o'.id = o.id) (hsound : o'.Sound)
    (hoffers : t.offers = s.offers.set i o') (hrecords : t.records = s.records)
    (hlive : LiveTable (s.offers.set i o') t.liveOffers)
    (hseats : LiveTable (s.offers.set i o') t.liveOfferSeats) : WalletInv decimal t := by
  simp only [Wallet.records, Prod.mk.injEq] at hrecords
  obtain ⟨hused, hmakers, hpaths, hawaiting⟩ := hrecords
  constructor
  · rw [hoffers]
    intro j p hp
    obtain ⟨rfl, rfl⟩ | ⟨_, hp'⟩ := getElem?_set_cases hp
    · exact hsound
    · exact h.offers j p hp'
  · rw [hoffers]
    exact h.unique.set ho hprogress hid
  · rw [hoffers]
    exact hlive
  · rw [hoffers]
    exact hseats
  · rw [hoffers, hused]
    exact h.used.set ho hprogress hid
  · rw [hmakers, hused]
    exact h.makers
  · rw [hpaths, hused]
    exact h.paths
  · rw [hawaiting, hused]
    exact h.awaiting

theorem WalletInv.setOffer (h : WalletInv decimal s) (ho : s.offers[i]? = some o)
    (hprogress : o.inProgress = true) (hid : o'.id = o.id) (hsound : o'.Sound)
    (hlive : o'.isLive = o.isLive) : WalletInv decimal (s.setOffer i o') := by
  refine h.advance ho hprogress hid hsound rfl rfl ?_ ?_
  · apply h.liveOffers.set h.offers h.unique ho hprogress hid fun _ _ => rfl
    rw [hlive]
    exact h.liveOffers.own h.offers h.unique ho hprogress
  · apply h.liveOfferSeats.set h.offers h.unique ho hprogress hid fun _ _ => rfl
    rw [hlive]
    exact h.liveOfferSeats.own h.offers h.unique ho hprogress

theorem WalletInv.report (h : WalletInv decimal s) (ho : s.offers[i]? = some o)
    (hprogress : o.inProgress = true) (hid : o'.id = o.id) (hsound : o'.Sound)
    (hstage : o.stage = .seated) (hstage' : o'.stage = .seated)
    (hkept : o.wantsReported = true → o'.wantsReported = true) :
    WalletInv decimal ((s.setOffer i o').updateStatus o') := by
  have hlive := Offer.isLive_of_seated hstage'
  unfold Wallet.updateStatus
  split
  case isTrue hreported =>
    rw [hreported] at hlive
    have hothers : ∀ (u : Table (OfferId ν) ℕ) (id : OfferId ν), id ≠ o.id →
        (u.erase o'.id).lookup id = u.lookup id := by
      intro u id hne
      rw [Table.lookup_erase, if_neg (hid ▸ hne)]
    have hown : ∀ u : Table (OfferId ν) ℕ,
        (u.erase o'.id).lookup o.id = if o'.isLive = true then some i else none := by
      intro u
      rw [Table.lookup_erase, if_pos hid.symm, hlive]
      rfl
    refine h.advance ho hprogress hid hsound rfl rfl ?_ ?_
    · exact h.liveOffers.set h.offers h.unique ho hprogress hid (hothers _) (hown _)
    · exact h.liveOfferSeats.set h.offers h.unique ho hprogress hid (hothers _) (hown _)
  case isFalse hreported =>
    apply h.setOffer ho hprogress hid hsound
    have hbefore : ¬ o.wantsReported = true := fun hwants => hreported (hkept hwants)
    rw [hlive, Offer.isLive_of_seated hstage, Bool.eq_false_iff.mpr hreported,
      Bool.eq_false_iff.mpr hbefore]

theorem LiveTable.append {offers : List (Offer ν)} {u : Table (OfferId ν) ℕ}
    (h : LiveTable offers u) {id : OfferId ν} {give : Bool} :
    LiveTable (offers ++ [({ id, give } : Offer ν)]) u := by
  constructor
  · intro j p hp
    obtain ⟨rfl, rfl⟩ | hp' := getElem?_append_cases hp
    · apply iff_of_false _ nofun
      intro hentry
      obtain ⟨q, hq, _⟩ := h.named _ _ hentry
      exact absurd (List.getElem?_eq_some_iff.mp hq).1 (lt_irrefl _)
    · exact h.live j p hp'
  · intro k j hj
    obtain ⟨p, hp, hid⟩ := h.named k j hj
    exact ⟨p, getElem?_append_of hp _, hid⟩

theorem Wallet.used_of_liveOffers {id : Text} (h : s.liveOffers.has (.string id) = true) :
    s.used id = true := by
  simp [Wallet.used, h]

theorem Wallet.used_of_invitation {id : Text} (h : s.offerToUsedInvitation.has id = true) :
    s.used id = true := by
  simp [Wallet.used, h]

theorem WalletInv.not_inProgress (h : WalletInv decimal s) {id : Text}
    (hused : s.used id = false) {j : ℕ} {p : Offer ν} (hp : s.offers[j]? = some p)
    (hid : p.id.toText decimal = id) (hsettingUp : p.settingUp = false)
    (hlive : p.isLive = true → p.id.isString = true)
    (hreported : p.wantsReported = true → p.finished = true) : p.inProgress = false := by
  cases hstage : p.stage with
  | starting | withdrawing | offering =>
    rw [Offer.settingUp, hstage] at hsettingUp
    cases hsettingUp
  | failed => rw [Offer.inProgress, hstage]
  | untracked => exact absurd hstage (h.offers j p hp).recorded
  | seated =>
    rw [Offer.inProgress_of_seated hstage, Bool.not_eq_false']
    apply hreported
    by_contra hne
    have hplive : p.isLive = true := by
      rw [Offer.isLive_of_seated hstage, Bool.eq_false_iff.mpr hne]
      rfl
    have hentry := (h.liveOffers.live j p hp).mpr hplive
    have hstring := hlive hplive
    cases hpid : p.id with
    | number n =>
      rw [hpid] at hstring
      cases hstring
    | string text =>
      rw [hpid] at hid hentry
      subst hid
      have hrefused := Wallet.used_of_liveOffers (Table.has_of_lookup hentry)
      exact Bool.noConfusion (hused.symm.trans hrefused)

theorem WalletInv.executeOffer (h : WalletInv decimal s) {id : OfferId ν} {give : Bool}
    (hok : orderly decimal s (.executeOffer id give)) :
    WalletInv decimal (s.executeOffer decimal id give) := by
  unfold Wallet.executeOffer
  split
  case isTrue => exact h
  case isFalse hused =>
    have hfree : ∀ (j : ℕ) (p : Offer ν), s.offers[j]? = some p →
        p.id.toText decimal = id.toText decimal → p.inProgress = false := by
      intro j p hp hid
      obtain ⟨hsettingUp, hlive, hreported⟩ :=
        (hok.resolve_left hused) p (List.mem_of_getElem? hp) hid
      exact h.not_inProgress (Bool.eq_false_iff.mpr hused) hp hid hsettingUp hlive hreported
    have hnew : s.offerToUsedInvitation.has (id.toText decimal) = false :=
      Bool.eq_false_iff.mpr fun hhas => hused (Wallet.used_of_invitation hhas)
    refine ⟨?_, ?_, h.liveOffers.append, h.liveOfferSeats.append, ⟨?_, ?_⟩, h.makers, h.paths,
      h.awaiting⟩
    · intro j p hp
      obtain ⟨rfl, rfl⟩ | hp' := getElem?_append_cases hp
      · exact ⟨nofun, fun _ => ⟨fun _ => rfl, rfl, rfl⟩, nofun, nofun⟩
      · exact h.offers j p hp'
    · intro j k p q hp hq htext hpp hqp
      obtain ⟨rfl, rfl⟩ | hp' := getElem?_append_cases hp
      · obtain ⟨rfl, rfl⟩ | hq' := getElem?_append_cases hq
        · rfl
        · rw [hfree k q hq' htext.symm] at hqp
          cases hqp
      · obtain ⟨rfl, rfl⟩ | hq' := getElem?_append_cases hq
        · rw [hfree j p hp' htext] at hpp
          cases hpp
        · exact h.unique j k p q hp' hq' htext hpp hqp
    · intro key j hj
      obtain ⟨p, hp, hkey⟩ := h.used.named key j hj
      exact ⟨p, getElem?_append_of hp _, hkey⟩
    · intro key j k p hj hp hkey hpp
      obtain ⟨rfl, rfl⟩ | hp' := getElem?_append_cases hp
      · subst hkey
        rw [Table.lookup_eq_none hnew] at hj
        cases hj
      · exact h.used.alone key j k p hj hp' hkey hpp

theorem WalletInv.addContinuingOffer (h : WalletInv decimal s) (ho : s.offers[i]? = some o)
    (hprogress : o.inProgress = true) (hasPaths : Bool) :
    WalletInv decimal (s.addContinuingOffer (o.id.toText decimal) i hasPaths) := by
  have hinsert := h.used.insert h.unique ho hprogress
  unfold Wallet.addContinuingOffer
  split
  case isTrue => exact h
  case isFalse hnew =>
    have hfree := Table.lookup_eq_none (Bool.eq_false_iff.mpr hnew)
    have hkept : ∀ key j, s.offerToUsedInvitation.lookup key = some j →
        (s.offerToUsedInvitation.insert (o.id.toText decimal) i).lookup key = some j := by
      intro key j hj
      rw [Table.lookup_insert, if_neg]
      · exact hj
      · rintro rfl
        rw [hfree] at hj
        cases hj
    have hpaths := fun key j hj => hkept key j (h.paths key j hj)
    have hmakers := fun key j hj => hkept key j (h.makers key j hj)
    have hawaiting := fun e he => hkept e.1 e.2 (h.awaiting e he)
    have hself : (s.offerToUsedInvitation.insert (o.id.toText decimal) i).lookup
        (o.id.toText decimal) = some i := by
      rw [Table.lookup_insert, if_pos rfl]
    dsimp only
    split
    case isTrue =>
      exact ⟨h.offers, h.unique, h.liveOffers, h.liveOfferSeats, hinsert, hmakers, hpaths,
        hawaiting⟩
    case isFalse =>
      refine ⟨h.offers, h.unique, h.liveOffers, h.liveOfferSeats, hinsert, ?_, hpaths, ?_⟩
      · intro key j hj
        rw [Table.lookup_insert] at hj
        split at hj
        case isTrue hkey =>
          cases hj
          exact hkey ▸ hself
        case isFalse => exact hmakers key j hj
      · intro e he
        change e ∈ (if hasPaths = true then _ else s.awaitingPaths) at he
        split at he
        case isTrue =>
          obtain he | he := List.mem_append.mp he
          · exact hawaiting e he
          · cases List.mem_singleton.mp he
            exact hself
        case isFalse => exact hawaiting e he

theorem WalletInv.pathsKnown (h : WalletInv decimal s) {j : ℕ} (hstep : s.pathsKnown j = some t) :
    WalletInv decimal t := by
  unfold Wallet.pathsKnown at hstep
  split at hstep
  · cases hstep
  · next offerId i hentry =>
    have hrest : ∀ e ∈ s.awaitingPaths.eraseIdx j,
        s.offerToUsedInvitation.lookup e.1 = some e.2 :=
      fun e he => h.awaiting e (List.mem_of_mem_eraseIdx he)
    have hown := h.awaiting _ (List.mem_of_getElem? hentry)
    dsimp only at hstep
    split at hstep
    case isTrue =>
      cases hstep
      exact ⟨h.offers, h.unique, h.liveOffers, h.liveOfferSeats, h.used, h.makers, h.paths, hrest⟩
    case isFalse =>
      cases hstep
      refine ⟨h.offers, h.unique, h.liveOffers, h.liveOfferSeats, h.used, h.makers, ?_, hrest⟩
      intro key k hk
      rw [Table.lookup_insert] at hk
      split at hk
      case isTrue hkey =>
        cases hk
        exact hkey ▸ hown
      case isFalse => exact h.paths key k hk

theorem WalletInv.move (h : WalletInv decimal s) (ho : s.offers[i]? = some o)
    (hsettingUp : o.settingUp = true) (stage : Stage) (hseated : stage ≠ .seated)
    (hrecorded : stage ≠ .untracked) : WalletInv decimal (s.setOffer i { o with stage }) := by
  have hsound := h.offers i o ho
  have hstage : o.stage ≠ .seated := by
    intro heq
    rw [Offer.settingUp, heq] at hsettingUp
    cases hsettingUp
  have hmoved := hsound.moved hstage hseated hrecorded
  have hlive := (Offer.isLive_of_unseated hmoved hseated).trans
    (Offer.isLive_of_unseated hsound hstage).symm
  exact h.setOffer ho (Offer.inProgress_of_settingUp hsettingUp) (by rfl) hmoved hlive

theorem WalletInv.payments (h : WalletInv decimal s) (payments : Table (OfferId ν) ℕ) :
    WalletInv decimal { s with liveOfferPayments := payments } :=
  ⟨h.offers, h.unique, h.liveOffers, h.liveOfferSeats, h.used, h.makers, h.paths, h.awaiting⟩

theorem WalletInv.invitationReady (h : WalletInv decimal s) {ok : Bool}
    (hstep : s.invitationReady i ok = some t) : WalletInv decimal t := by
  unfold Wallet.invitationReady at hstep
  split at hstep
  · cases hstep
  · next o ho =>
    obtain ⟨hstage, hstep⟩ := Option.ite_none_left_eq_some.mp hstep
    have hsettingUp : o.settingUp = true := by rw [Offer.settingUp, not_not.mp hstage]
    have hfailed := h.move ho hsettingUp .failed nofun nofun
    have hwithdrawing := h.move ho hsettingUp .withdrawing nofun nofun
    have hoffering := h.move ho hsettingUp .offering nofun nofun
    split at hstep
    case isTrue =>
      cases hstep
      exact hfailed
    case isFalse =>
      split at hstep
      case isTrue =>
        split at hstep
        case isTrue =>
          cases hstep
          exact hfailed
        case isFalse =>
          cases hstep
          exact hwithdrawing.payments _
      case isFalse =>
        cases hstep
        exact hoffering

theorem WalletInv.withdrawn (h : WalletInv decimal s) {ok : Bool}
    (hstep : s.withdrawn i ok = some t) : WalletInv decimal t := by
  unfold Wallet.withdrawn at hstep
  split at hstep
  · cases hstep
  · next o ho =>
    obtain ⟨hstage, hstep⟩ := Option.ite_none_left_eq_some.mp hstep
    have hsettingUp : o.settingUp = true := by rw [Offer.settingUp, not_not.mp hstage]
    cases hstep
    cases ok with
    | true => exact h.move ho hsettingUp _ nofun nofun
    | false => exact h.move ho hsettingUp _ nofun nofun

theorem WalletInv.zoeOffered (h : WalletInv decimal s) {ok : Bool}
    (hstep : s.zoeOffered i ok = some t) : WalletInv decimal t := by
  unfold Wallet.zoeOffered at hstep
  split at hstep
  · cases hstep
  · next o ho =>
    obtain ⟨hstage, hstep⟩ := Option.ite_none_left_eq_some.mp hstep
    have hstage := not_not.mp hstage
    have hsettingUp : o.settingUp = true := by rw [Offer.settingUp, hstage]
    have hprogress := Offer.inProgress_of_settingUp hsettingUp
    have hsound := h.offers i o ho
    have hunseated : o.stage ≠ .seated := by
      rw [hstage]
      decide
    have hlive := Offer.isLive_of_unseated hsound hunseated
    have hfree := h.liveOffers.own h.offers h.unique ho hprogress
    have hseatFree := h.liveOfferSeats.own h.offers h.unique ho hprogress
    rw [hlive, if_neg Bool.false_ne_true] at hfree hseatFree
    split at hstep
    case isTrue =>
      cases hstep
      exact h.move ho hsettingUp _ (by decide) (by decide)
    case isFalse =>
      have hhas : s.liveOffers.has o.id = false := by rw [Table.has, hfree, Option.isSome_none]
      have hseatHas : s.liveOfferSeats.has o.id = false := by
        rw [Table.has, hseatFree, Option.isSome_none]
      dsimp only at hstep
      rw [if_neg (by rw [hhas]; exact Bool.false_ne_true),
        if_neg (by rw [hseatHas]; exact Bool.false_ne_true)] at hstep
      cases hstep
      have hseated := hsound.seat hunseated
      have hnewLive : ({ o with
          stage := .seated
          watching := fun outcome => (o.watching outcome).start } : Offer ν).isLive = true := by
        rw [Offer.isLive_of_seated rfl, (hsound.unwatched hunseated).2.1]
        rfl
      have hothers : ∀ (u : Table (OfferId ν) ℕ) (id : OfferId ν), id ≠ o.id →
          (u.insert o.id i).lookup id = u.lookup id := by
        intro u id hne
        rw [Table.lookup_insert, if_neg hne]
      have hown : ∀ u : Table (OfferId ν) ℕ, (u.insert o.id i).lookup o.id =
          if Offer.isLive { o with
            stage := .seated
            watching := fun outcome => (o.watching outcome).start } = true
          then some i else none := by
        intro u
        rw [Table.lookup_insert, if_pos rfl, if_pos hnewLive]
      refine h.advance ho hprogress (by rfl) hseated rfl rfl ?_ ?_
      · exact h.liveOffers.set h.offers h.unique ho hprogress (by rfl) (hothers _) (hown _)
      · exact h.liveOfferSeats.set h.offers h.unique ho hprogress (by rfl) (hothers _) (hown _)

theorem WalletInv.resultFulfilled (h : WalletInv decimal s) {result : OfferResult}
    (hstep : s.resultFulfilled decimal i result = some t) : WalletInv decimal t := by
  unfold Wallet.resultFulfilled at hstep
  split at hstep
  · cases hstep
  · next o ho =>
    obtain ⟨hpending, hstep⟩ := Option.ite_none_left_eq_some.mp hstep
    have hsound := h.offers i o ho
    have hprogress := hsound.inProgress_of_pending hpending
    have hstage := hsound.seated_of_pending hpending
    have hsettled : (Wallet.settle o .result).Sound := hsound.settle hpending id nofun
    cases result with
    | plain | saved =>
      cases hstep
      exact h.report ho hprogress rfl hsettled hstage hstage id
    | continuing hasPaths =>
      cases hstep
      change WalletInv decimal (((s.setOffer i (Wallet.settle o .result)).addContinuingOffer
        (o.id.toText decimal) i hasPaths).updateStatus (Wallet.settle o .result))
      rw [Wallet.setOffer_addContinuingOffer]
      have hrecorded := h.addContinuingOffer ho hprogress hasPaths
      have ho' : (s.addContinuingOffer (o.id.toText decimal) i hasPaths).offers[i]? = some o := by
        rw [Wallet.addContinuingOffer_offers, ho]
      exact hrecorded.report ho' hprogress rfl hsettled hstage hstage id

theorem WalletInv.numWantsFulfilled (h : WalletInv decimal s)
    (hstep : s.numWantsFulfilled i = some t) : WalletInv decimal t := by
  unfold Wallet.numWantsFulfilled at hstep
  split at hstep
  · cases hstep
  · next o ho =>
    obtain ⟨hpending, hstep⟩ := Option.ite_none_left_eq_some.mp hstep
    have hsound := h.offers i o ho
    have hprogress := hsound.inProgress_of_pending hpending
    have hstage := hsound.seated_of_pending hpending
    cases hstep
    exact h.report ho hprogress (by rfl)
      (hsound.settle hpending (fun _ => rfl) fun _ => rfl) hstage hstage fun _ => rfl

theorem WalletInv.payoutsFulfilled (h : WalletInv decimal s)
    (hstep : s.payoutsFulfilled i = some t) : WalletInv decimal t := by
  unfold Wallet.payoutsFulfilled at hstep
  split at hstep
  · cases hstep
  · next o ho =>
    obtain ⟨hpending, hstep⟩ := Option.ite_none_left_eq_some.mp hstep
    have hsound := h.offers i o ho
    have hprogress := hsound.inProgress_of_pending hpending
    cases hstep
    exact h.setOffer ho hprogress (by rfl) (hsound.settle hpending id nofun) rfl

theorem WalletInv.deposited (h : WalletInv decimal s) {ok : Bool}
    (hstep : s.deposited i ok = some t) : WalletInv decimal t := by
  unfold Wallet.deposited at hstep
  split at hstep
  · cases hstep
  · next o ho =>
    obtain ⟨hdepositing, hstep⟩ := Option.ite_none_left_eq_some.mp hstep
    have hdepositing := Bool.not_eq_false _ ▸ hdepositing
    have hsound := h.offers i o ho
    have hprogress := hsound.inProgress_of_depositing hdepositing
    have hstage := hsound.seated_of_depositing hdepositing
    have hdeposited : Offer.Sound { o with depositing := false } :=
      ⟨hsound.recorded, (absurd hstage ·), hsound.watched, hsound.reported⟩
    cases hstep
    cases ok with
    | true => exact h.report ho hprogress (by rfl) hdeposited hstage hstage id
    | false => exact h.setOffer ho hprogress (by rfl) hdeposited rfl

theorem WalletInv.rejected (h : WalletInv decimal s) {outcome : Outcome} {reason : Reason}
    (hok : orderly decimal s (.rejected i outcome reason))
    (hstep : s.rejected i outcome reason = some t) : WalletInv decimal t := by
  unfold Wallet.rejected at hstep
  split at hstep
  · cases hstep
  · next o ho =>
    obtain ⟨hpending, hstep⟩ := Option.ite_none_left_eq_some.mp hstep
    have hsound := h.offers i o ho
    have hprogress := hsound.inProgress_of_pending hpending
    have hstage := hsound.seated_of_pending hpending
    have hwatching := (hsound.watched hstage outcome).needsRetry reason
    change (if (isRetryableReason reason (o.watching outcome).priorRetry).isSome = true
      then _ else _) = some t at hstep
    split at hwatching
    case isTrue hretry =>
      rw [if_pos hretry] at hstep
      cases hstep
      exact h.setOffer ho hprogress (by rfl)
        (hsound.react hstage hwatching id fun _ hzero => absurd hzero (Nat.succ_ne_zero _)) (by rfl)
    case isFalse hretry =>
      have hother : outcome ≠ .numWants := by
        rintro rfl
        exact hretry (hok o ho)
      rw [if_neg hretry] at hstep
      cases hstep
      exact h.report ho hprogress (by rfl)
        (hsound.react hstage hwatching id fun heq => absurd heq hother) hstage hstage id

theorem WalletInv.init : WalletInv decimal ({} : Wallet ν) := by
  have hoffers : ∀ (i : ℕ) (o : Offer ν), ([] : List (Offer ν))[i]? ≠ some o := by
    intro i o
    rw [List.getElem?_nil]
    exact nofun
  have hlive : LiveTable ([] : List (Offer ν)) ∅ := by
    constructor
    · exact fun i o ho => absurd ho (hoffers i o)
    · intro id i hi
      rw [Table.lookup_empty] at hi
      cases hi
  have hrecords : ∀ (key : Text) (i : ℕ), (∅ : Table Text ℕ).lookup key ≠ some i := by
    intro key i
    rw [Table.lookup_empty]
    exact nofun
  constructor
  · exact fun i o ho => absurd ho (hoffers i o)
  · exact fun i _ o _ ho => absurd ho (hoffers i o)
  · exact hlive
  · exact hlive
  · constructor
    · exact fun key i hi => absurd hi (hrecords key i)
    · exact fun key i _ _ hi => absurd hi (hrecords key i)
  · exact fun key i hi => absurd hi (hrecords key i)
  · exact fun key i hi => absurd hi (hrecords key i)
  · exact fun e he => absurd he List.not_mem_nil

theorem WalletInv.step (h : WalletInv decimal s) {a : Action ν} (hok : orderly decimal s a)
    (hstep : s.step decimal a = some t) : WalletInv decimal t := by
  cases a with
  | executeOffer id give =>
    cases hstep
    exact h.executeOffer hok
  | invitationReady i ok => exact h.invitationReady hstep
  | withdrawn i ok => exact h.withdrawn hstep
  | zoeOffered i ok => exact h.zoeOffered hstep
  | tryExitOffer id =>
    obtain ⟨_, _, heq⟩ := Option.map_eq_some_iff.mp hstep
    cases heq
    exact h
  | resultFulfilled i result => exact h.resultFulfilled hstep
  | numWantsFulfilled i => exact h.numWantsFulfilled hstep
  | payoutsFulfilled i => exact h.payoutsFulfilled hstep
  | deposited i ok => exact h.deposited hstep
  | rejected i outcome reason => exact h.rejected hok hstep
  | pathsKnown j => exact h.pathsKnown hstep

end Steps

section Tracking

variable {ν : Type} [DecidableEq ν] {decimal : ν → Text} {s : Wallet ν} {i : ℕ}

theorem WalletInv.used_of_hasRecords (h : WalletInv decimal s) {key : Text}
    (hrecords : s.HasRecords key i) : s.offerToUsedInvitation.lookup key = some i := by
  obtain hused | hmakers | hpaths := hrecords
  · exact hused
  · exact h.makers key i hmakers
  · exact h.paths key i hpaths

theorem WalletInv.inProgress_of_entry (h : WalletInv decimal s) {t : Table (OfferId ν) ℕ}
    (ht : LiveTable s.offers t) {id : OfferId ν} (hentry : t.lookup id = some i) :
    ∃ o ∈ s.offers, o.id = id ∧ o.inProgress = true := by
  obtain ⟨o, ho, rfl⟩ := ht.named id i hentry
  have hlive := (ht.live i o ho).mp hentry
  exact ⟨o, List.mem_of_getElem? ho, rfl, (h.offers i o ho).inProgress_of_isLive hlive⟩

theorem WalletInv.settled (h : WalletInv decimal s) {t : Table (OfferId ν) ℕ}
    (ht : LiveTable s.offers t) {o : Offer ν} (ho : s.offers[i]? = some o)
    (hfinished : o.finished = true) : t.lookup o.id ≠ some i ∧
      ((∀ p ∈ s.offers, p.id = o.id → p.inProgress = false) → t.has o.id = false) := by
  constructor
  · intro hentry
    have hlive := (ht.live i o ho).mp hentry
    rw [(h.offers i o ho).not_isLive hfinished] at hlive
    cases hlive
  · intro hfree
    cases hentry : t.lookup o.id with
    | none => rw [Table.has, hentry, Option.isSome_none]
    | some j =>
      obtain ⟨p, hp, hid, hprogress⟩ := h.inProgress_of_entry ht hentry
      rw [hfree p hp hid] at hprogress
      cases hprogress

theorem WalletInv.tracked (h : WalletInv decimal s) : s.Tracked decimal := by
  refine ⟨?_, h.liveOffers, h.liveOfferSeats, ?_, ?_⟩
  · intro i j o p ho hp htext hi hj
    have hone : ∀ k, s.HasRecords (p.id.toText decimal) k → ∀ (l : ℕ) (q : Offer ν),
        s.offers[l]? = some q → q.id.toText decimal = p.id.toText decimal →
        q.inProgress = true ∨ s.HasRecords (p.id.toText decimal) l → l = k := by
      intro k hk l q hq hqtext hl
      have hused := h.used_of_hasRecords hk
      obtain hprogress | hrecords := hl
      · exact h.used.alone _ k l q hused hq hqtext hprogress
      · exact Option.some.inj ((h.used_of_hasRecords hrecords).symm.trans hused)
    rw [htext] at hi
    obtain hj | hj := hj
    · obtain hi | hi := hi
      · exact h.unique i j o p ho hp htext hi hj
      · exact (hone i hi j p hp rfl (.inl hj)).symm
    · exact hone j hj i o ho htext hi
  · intro i o outcome ho
    have hsound := h.offers i o ho
    by_cases hstage : o.stage = .seated
    · have hwatched := hsound.watched hstage outcome
      rw [if_pos hstage]
      exact ⟨hwatched.pending_le, hwatched.started⟩
    · rw [if_neg hstage, (hsound.unwatched hstage).1 outcome]
      exact ⟨Nat.zero_le 1, rfl⟩
  · intro i o ho _ hfinished t ht
    obtain rfl | ht := List.mem_cons.mp ht
    · exact h.settled h.liveOffers ho hfinished
    · cases List.mem_singleton.mp ht
      exact h.settled h.liveOfferSeats ho hfinished

/-- In every run in which no id slips through its check and no watch of the wants is given up,
the offers are tracked to their end. -/
theorem offers_tracked (h : (smartWallet decimal).Reachable (orderly decimal) s) :
    s.Tracked decimal := by
  have hinv : WalletInv decimal s := by
    apply h.invariant
    · rintro s rfl
      exact WalletInv.init
    · exact fun s a t hs hok hstep => hs.step hok hstep
  exact hinv.tracked

/-- Upgrades during an offer with a string id, which is then submitted again, and an offer with a
number. -/
def twoOffers : List (Action ℕ) :=
  [.executeOffer (.string ['a']) true, .invitationReady 0 true, .withdrawn 0 true,
    .zoeOffered 0 true, .rejected 0 .numWants (.disconnection 1), .rejected 0 .numWants .abandoned,
    .executeOffer (.string ['a']) false, .tryExitOffer (.string ['a']),
    .rejected 0 .payouts (.disconnection 1), .resultFulfilled 0 (.continuing true),
    .numWantsFulfilled 0, .pathsKnown 0, .executeOffer (.string ['a']) false,
    .executeOffer (.number 5) false, .invitationReady 1 true, .zoeOffered 1 true,
    .payoutsFulfilled 0, .deposited 0 true]

theorem offers_tracked_twoOffers : ∃ s : Wallet ℕ,
    (s.offers.map (fun o => ((o.watching .numWants).started, o.finished)) =
        [(3, true), (1, false)] ∧
      s.liveOffers.pairs = [(.number 5, 1)]) ∧
      s.Tracked (Nat.toDigits 10) := by
  have hrun : ((smartWallet (Nat.toDigits 10)).runWhile (orderly (Nat.toDigits 10)) {}
      twoOffers).map (fun s =>
        (s.offers.map fun o => ((o.watching .numWants).started, o.finished),
          s.liveOffers.pairs)) =
      some ([(3, true), (1, false)], [(.number 5, 1)]) := by
    decide +kernel
  obtain ⟨s, hs, heq⟩ := Option.map_eq_some_iff.mp hrun
  exact ⟨s, Prod.mk.inj heq, offers_tracked (.of_runWhile (.init rfl) hs)⟩

/-- A number is looked up as a string and recorded as a number, so that it is not found. -/
theorem offers_numberTwice : ¬ ∀ s : Wallet ℕ,
    (smartWallet (Nat.toDigits 10)).Reachable anyStep s → s.Tracked (Nat.toDigits 10) := by
  intro hall
  have hrun : ((smartWallet (Nat.toDigits 10)).runWhile anyStep {}
      [.executeOffer (.number 5) false, .invitationReady 0 true, .zoeOffered 0 true,
        .executeOffer (.number 5) false]).map (fun s =>
          s.offers.map fun o => (o.id, o.inProgress)) =
      some [(.number 5, true), (.number 5, true)] := by
    decide +kernel
  obtain ⟨s, hs, heq⟩ := Option.map_eq_some_iff.mp hrun
  have htracked := hall s (.of_runWhile (.init rfl) hs)
  obtain ⟨o, rest, hoffers, ho, hrest⟩ := List.map_eq_cons_iff.mp heq
  obtain ⟨p, rest', hrest, hp, _⟩ := List.map_eq_cons_iff.mp hrest
  simp only [Prod.mk.injEq] at ho hp
  have hfirst : s.offers[0]? = some o := by rw [hoffers]; rfl
  have hsecond : s.offers[1]? = some p := by rw [hoffers, hrest]; rfl
  have htext := congrArg (OfferId.toText (Nat.toDigits 10)) (ho.1.trans hp.1.symm)
  have heq := htracked.unique 0 1 o p hfirst hsecond htext (.inl ho.2) (.inl hp.2)
  cases heq

/-- A watch that is abandoned by two upgrades in a row is given up, and the id stays live. -/
example : ((smartWallet (Nat.toDigits 10)).runWhile anyStep {}
    [.executeOffer (.string ['a']) false, .invitationReady 0 true, .zoeOffered 0 true,
      .resultFulfilled 0 .plain, .payoutsFulfilled 0, .deposited 0 true,
      .rejected 0 .numWants .abandoned, .rejected 0 .numWants .abandoned]).map (fun s =>
        (s.offers.map fun o => (o.isSeated, o.finished), s.liveOffers.has (.string ['a']))) =
    some ([(true, true)], true) := by
  decide +kernel

end Tracking

end AgoricSdk.SmartWallet
