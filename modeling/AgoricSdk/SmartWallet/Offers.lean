import AgoricSdk.Lib.Table
import AgoricSdk.Lib.Transition
import Mathlib.Logic.Function.Basic

/-!
The offers of a smart wallet: how `executeOffer` checks the id of an offer, sets the offer up over
several turns and records its seat, and how the watchers of the three outcomes of the seat report
them and watch again after an upgrade.
-/

namespace AgoricSdk.SmartWallet

abbrev Text := List Char

section Ids

/-- The id of an offer, as the client gives it. -/
inductive OfferId (ν : Type) where
  | string (text : Text)
  | number (n : ν)
  deriving DecidableEq

variable {ν : Type}

/-- `String(id)`, where numbers are written as `decimal` says. -/
def OfferId.toText (decimal : ν → Text) : OfferId ν → Text
  | .string text => text
  | .number n => decimal n

def OfferId.isString : OfferId ν → Bool
  | .string _ => true
  | .number _ => false

end Ids

section Retries

/-- Why a promise was rejected. -/
inductive Reason where
  | disconnection (incarnationNumber : ℕ)
  | abandoned
  | error
  deriving DecidableEq

def isRetryableReason : Reason → Option Reason → Option Reason
  | .disconnection n, some (.disconnection prior) =>
    if n > prior then some (.disconnection n) else none
  | .disconnection n, _ => some (.disconnection n)
  | .abandoned, some .abandoned => none
  | .abandoned, _ => some .abandoned
  | .error, _ => none

end Retries

inductive Outcome where
  | result
  | numWants
  | payouts
  deriving DecidableEq

/-- The watches of one outcome of a seat, with the reason that its watcher remembers. -/
structure Watching where
  pending : ℕ := 0
  started : ℕ := 0
  priorRetry : Option Reason := none
  rejections : List Reason := []
  deriving DecidableEq

def Watching.start (s : Watching) : Watching :=
  { s with pending := s.pending + 1, started := s.started + 1 }

def Watching.settled (s : Watching) : Watching := { s with pending := s.pending - 1 }

/-- The watcher and whether `needsRetry`. -/
def Watching.needsRetry (s : Watching) (reason : Reason) : Bool × Watching :=
  let retryable := isRetryableReason reason s.priorRetry
  (retryable.isSome,
    { s with priorRetry := retryable, rejections := s.rejections ++ [reason] })

/-- How far `executeOffer` has come. -/
inductive Stage where
  | starting
  | withdrawing
  | offering
  | failed
  /-- Seated and recorded. -/
  | seated
  /-- Seated, where the offer or its seat could not be recorded. -/
  | untracked
  deriving DecidableEq

structure Offer (ν : Type) where
  id : OfferId ν
  give : Bool
  stage : Stage := .starting
  watching : Outcome → Watching := fun _ => {}
  /-- The status that the watcher holds has `numWantsSatisfied`. -/
  wantsReported : Bool := false
  /-- The payouts are being deposited. -/
  depositing : Bool := false

inductive OfferResult where
  | plain
  | saved
  | continuing (hasPaths : Bool)
  deriving DecidableEq

/-- Offers by the order of their calls, and the tables of the wallet, which name the offers that
their entries are of. -/
structure Wallet (ν : Type) where
  offers : List (Offer ν) := []
  liveOffers : Table (OfferId ν) ℕ := ∅
  liveOfferSeats : Table (OfferId ν) ℕ := ∅
  liveOfferPayments : Table (OfferId ν) ℕ := ∅
  offerToUsedInvitation : Table Text ℕ := ∅
  offerToInvitationMakers : Table Text ℕ := ∅
  offerToPublicSubscriberPaths : Table Text ℕ := ∅
  /-- The calls of `addContinuingOffer` that wait for the storage paths. -/
  awaitingPaths : List (Text × ℕ) := []

variable {ν : Type} [DecidableEq ν]

namespace Wallet

section Helper

/-- The test of `assertUniqueOfferId`. -/
def used (s : Wallet ν) (id : Text) : Bool :=
  s.liveOffers.has (.string id) || s.liveOfferSeats.has (.string id) ||
    s.liveOfferPayments.has (.string id) || s.offerToInvitationMakers.has id ||
    s.offerToPublicSubscriberPaths.has id || s.offerToUsedInvitation.has id

def setOffer (s : Wallet ν) (i : ℕ) (offer : Offer ν) : Wallet ν :=
  { s with offers := s.offers.set i offer }

/-- A status with `numWantsSatisfied` ends the life of the offer. -/
def updateStatus (s : Wallet ν) (offer : Offer ν) : Wallet ν :=
  if offer.wantsReported then
    { s with
      liveOfferSeats := s.liveOfferSeats.erase offer.id
      liveOfferPayments := s.liveOfferPayments.erase offer.id
      liveOffers := s.liveOffers.erase offer.id }
  else s

/-- Up to where it waits for the storage paths. An `init` of a key that is there throws. -/
def addContinuingOffer (s : Wallet ν) (offerId : Text) (i : ℕ) (hasPaths : Bool) : Wallet ν :=
  if s.offerToUsedInvitation.has offerId then s
  else
    let t := { s with offerToUsedInvitation := s.offerToUsedInvitation.insert offerId i }
    if t.offerToInvitationMakers.has offerId then t
    else
      { t with
        offerToInvitationMakers := t.offerToInvitationMakers.insert offerId i
        awaitingPaths := if hasPaths then t.awaitingPaths ++ [(offerId, i)] else t.awaitingPaths }

def pathsKnown (s : Wallet ν) (j : ℕ) : Option (Wallet ν) :=
  match s.awaitingPaths[j]? with
  | none => none
  | some (offerId, i) =>
    let t := { s with awaitingPaths := s.awaitingPaths.eraseIdx j }
    if t.offerToPublicSubscriberPaths.has offerId then some t
    else some { t with
      offerToPublicSubscriberPaths := t.offerToPublicSubscriberPaths.insert offerId i }

end Helper

section ExecuteOffer

/-- The call, up to where it first waits. -/
def executeOffer (decimal : ν → Text) (s : Wallet ν) (id : OfferId ν) (give : Bool) : Wallet ν :=
  if s.used (id.toText decimal) then s else { s with offers := s.offers ++ [{ id, give }] }

/-- The invitation is there, or cannot be had. The payments to withdraw are recorded first. -/
def invitationReady (s : Wallet ν) (i : ℕ) (ok : Bool) : Option (Wallet ν) :=
  match s.offers[i]? with
  | none => none
  | some offer =>
    if offer.stage ≠ .starting then none
    else if ok = false then some (s.setOffer i { offer with stage := .failed })
    else if offer.give then
      if s.liveOfferPayments.has offer.id then
        some (s.setOffer i { offer with stage := .failed })
      else
        some { s.setOffer i { offer with stage := .withdrawing } with
          liveOfferPayments := s.liveOfferPayments.insert offer.id i }
    else some (s.setOffer i { offer with stage := .offering })

def withdrawn (s : Wallet ν) (i : ℕ) (ok : Bool) : Option (Wallet ν) :=
  match s.offers[i]? with
  | none => none
  | some offer =>
    if offer.stage ≠ .withdrawing then none
    else some (s.setOffer i { offer with stage := if ok then .offering else .failed })

/-- Zoe has answered. The three outcomes are watched when the offer and its seat are recorded. -/
def zoeOffered (s : Wallet ν) (i : ℕ) (ok : Bool) : Option (Wallet ν) :=
  match s.offers[i]? with
  | none => none
  | some offer =>
    if offer.stage ≠ .offering then none
    else if ok = false then some (s.setOffer i { offer with stage := .failed })
    else if s.liveOffers.has offer.id then
      some (s.setOffer i { offer with stage := .untracked })
    else
      let t := { s with liveOffers := s.liveOffers.insert offer.id i }
      if t.liveOfferSeats.has offer.id then some (t.setOffer i { offer with stage := .untracked })
      else
        some { t.setOffer i { offer with
            stage := .seated, watching := fun outcome => (offer.watching outcome).start } with
          liveOfferSeats := t.liveOfferSeats.insert offer.id i }

/-- The seat that is asked to exit; `none` where the call throws. -/
def tryExitOffer (s : Wallet ν) (offerId : OfferId ν) : Option ℕ := s.liveOfferSeats.lookup offerId

end ExecuteOffer

section Watchers

/-- A watch of the outcome settles. -/
def settle (offer : Offer ν) (outcome : Outcome) : Offer ν :=
  { offer with
    watching := Function.update offer.watching outcome (offer.watching outcome).settled }

def resultFulfilled (decimal : ν → Text) (s : Wallet ν) (i : ℕ) (result : OfferResult) :
    Option (Wallet ν) :=
  match s.offers[i]? with
  | none => none
  | some offer =>
    if (offer.watching .result).pending = 0 then none
    else
      let offer := settle offer .result
      let s := s.setOffer i offer
      let s := match result with
        | .continuing hasPaths => s.addContinuingOffer (offer.id.toText decimal) i hasPaths
        | .plain | .saved => s
      some (s.updateStatus offer)

def numWantsFulfilled (s : Wallet ν) (i : ℕ) : Option (Wallet ν) :=
  match s.offers[i]? with
  | none => none
  | some offer =>
    if (offer.watching .numWants).pending = 0 then none
    else
      let offer := { settle offer .numWants with wantsReported := true }
      some ((s.setOffer i offer).updateStatus offer)

/-- The payouts are deposited before they are reported. -/
def payoutsFulfilled (s : Wallet ν) (i : ℕ) : Option (Wallet ν) :=
  match s.offers[i]? with
  | none => none
  | some offer =>
    if (offer.watching .payouts).pending = 0 then none
    else some (s.setOffer i { settle offer .payouts with depositing := true })

def deposited (s : Wallet ν) (i : ℕ) (ok : Bool) : Option (Wallet ν) :=
  match s.offers[i]? with
  | none => none
  | some offer =>
    if offer.depositing = false then none
    else
      let offer := { offer with depositing := false }
      let s := s.setOffer i offer
      some (if ok then s.updateStatus offer else s)

/-- A watcher whose outcome is rejected watches again, or handles the error. -/
def rejected (s : Wallet ν) (i : ℕ) (outcome : Outcome) (reason : Reason) : Option (Wallet ν) :=
  match s.offers[i]? with
  | none => none
  | some offer =>
    if (offer.watching outcome).pending = 0 then none
    else
      let (retry, watching) := (offer.watching outcome).settled.needsRetry reason
      if retry then
        some (s.setOffer i { offer with
          watching := Function.update offer.watching outcome watching.start })
      else
        let offer := { offer with watching := Function.update offer.watching outcome watching }
        some ((s.setOffer i offer).updateStatus offer)

end Watchers

end Wallet

inductive Action (ν : Type) where
  | executeOffer (id : OfferId ν) (give : Bool)
  | invitationReady (i : ℕ) (ok : Bool)
  | withdrawn (i : ℕ) (ok : Bool)
  | zoeOffered (i : ℕ) (ok : Bool)
  | tryExitOffer (id : OfferId ν)
  | resultFulfilled (i : ℕ) (result : OfferResult)
  | numWantsFulfilled (i : ℕ)
  | payoutsFulfilled (i : ℕ)
  | deposited (i : ℕ) (ok : Bool)
  | rejected (i : ℕ) (outcome : Outcome) (reason : Reason)
  | pathsKnown (j : ℕ)

def Wallet.step (decimal : ν → Text) (s : Wallet ν) : Action ν → Option (Wallet ν)
  | .executeOffer id give => some (s.executeOffer decimal id give)
  | .invitationReady i ok => s.invitationReady i ok
  | .withdrawn i ok => s.withdrawn i ok
  | .zoeOffered i ok => s.zoeOffered i ok
  | .tryExitOffer id => (s.tryExitOffer id).map fun _ => s
  | .resultFulfilled i result => s.resultFulfilled decimal i result
  | .numWantsFulfilled i => s.numWantsFulfilled i
  | .payoutsFulfilled i => s.payoutsFulfilled i
  | .deposited i ok => s.deposited i ok
  | .rejected i outcome reason => s.rejected i outcome reason
  | .pathsKnown j => s.pathsKnown j

def smartWallet (decimal : ν → Text) : TransitionSystem (Wallet ν) (Action ν) where
  init s := s = {}
  step := Wallet.step decimal

end AgoricSdk.SmartWallet
