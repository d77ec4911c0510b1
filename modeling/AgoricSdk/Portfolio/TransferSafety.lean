import AgoricSdk.Portfolio.OwnershipTransfer

/-!
Ownership transfers are safe in every order of the steps of the portfolio and the timer
service. The result of each transfer is settled exactly once, unless it is the pending one,
for which a wakeup is still to come.
-/

namespace AgoricSdk.Portfolio

open StateProgram TransitionSystem

variable {δ : Type}

section Facets

variable {s : PortfolioState δ}

theorem check_run (p : Prop) [Decidable p] (message : String) (s : PortfolioState δ) :
    (p ∧ check p message s = .ok ⟨⟩ s) ∨ (¬ p ∧ check p message s = .error message s) := by
  unfold check
  by_cases hp : p
  · rw [if_pos hp]
    exact .inl ⟨hp, rfl⟩
  · rw [if_neg hp]
    exact .inr ⟨hp, rfl⟩

theorem insistAgoricOwned_run (s : PortfolioState δ) :
    (s.sourceAccountId = none ∧ insistAgoricOwned s = .ok ⟨⟩ s) ∨
      (s.sourceAccountId ≠ none ∧ ∃ reason, insistAgoricOwned s = .error reason s) := by
  rcases check_run (s.sourceAccountId = none)
    (let account := q (s.sourceAccountId.getD "");
      s!"portfolio{s.portfolioId} is owned by EVM account {account}") s with
    ⟨hsource, hrun⟩ | ⟨hsource, hrun⟩
  · exact .inl ⟨hsource, hrun⟩
  · exact .inr ⟨hsource, _, hrun⟩

theorem bind_ok {α β : Type} {m : Facet δ α} {f : α → Facet δ β} {a : α} {t : PortfolioState δ}
    (h : m s = .ok a t) : (m >>= f) s = f a t := by
  change EStateM.bind m f s = _
  unfold EStateM.bind
  rw [h]

theorem bind_error {α β : Type} {m : Facet δ α} {f : α → Facet δ β} {reason : String}
    {t : PortfolioState δ} (h : m s = .error reason t) : (m >>= f) s = .error reason t := by
  change EStateM.bind m f s = _
  unfold EStateM.bind
  rw [h]

theorem initiateTransfer_run (evmAddress : String) (deadline now : ℕ) (s : PortfolioState δ) :
    (∃ reason, initiateTransfer evmAddress deadline now s = .error reason s) ∨
      (s.sourceAccountId = none ∧ now ≤ deadline ∧
        initiateTransfer evmAddress deadline now s =
          .ok ⟨⟩ { s with pendingOwnerTransfer := some ⟨evmAddress, deadline⟩ }) := by
  unfold initiateTransfer
  rcases insistAgoricOwned_run s with ⟨hsource, hrun⟩ | ⟨-, reason, hrun⟩
  · rw [bind_ok hrun]
    rcases check_run (now ≤ deadline)
      s!"deadline {qBigint deadline} has already passed (now {qBigint now})" s with
      ⟨hnow, hrun⟩ | ⟨-, hrun⟩
    · rw [bind_ok hrun]
      rcases check_run (deadline ≤ now + maxYmaxDeadlineOffsetSeconds)
        s!"deadline {qBigint deadline} is too far in the future (now {qBigint now})" s with
        ⟨-, hrun⟩ | ⟨-, hrun⟩
      · rw [bind_ok hrun]
        exact .inr ⟨hsource, hnow, rfl⟩
      · rw [bind_error hrun]
        exact .inl ⟨_, rfl⟩
    · rw [bind_error hrun]
      exact .inl ⟨_, rfl⟩
  · rw [bind_error hrun]
    exact .inl ⟨_, rfl⟩

/-- The ways in which a call to complete a transfer ends: it is refused, it expires the
transfer, or it completes it. -/
theorem completeTransfer_run (signer : String) (chainId now : ℕ) (s : PortfolioState δ) :
    ((∃ reason, completeTransfer signer chainId now s = .error reason s) ∧
      (s.sourceAccountId = none → ∀ pending, s.pendingOwnerTransfer = some pending →
        sameEvmAddress pending.evmAddress signer = false)) ∨
    ∃ pending, s.sourceAccountId = none ∧ s.pendingOwnerTransfer = some pending ∧
      sameEvmAddress pending.evmAddress signer = true ∧
      ((pending.deadlineTimestampSeconds < now ∧ ∃ reason,
          completeTransfer signer chainId now s =
            .error reason { s with pendingOwnerTransfer := none }) ∨
        (now ≤ pending.deadlineTimestampSeconds ∧
          completeTransfer signer chainId now s =
            .ok ⟨⟩ { s with
              sourceAccountId := some s!"eip155:{chainId}:{signer.toLower}"
              pendingOwnerTransfer := none })) := by
  unfold completeTransfer
  rcases insistAgoricOwned_run s with ⟨hsource, hrun⟩ | ⟨hsource, reason, hrun⟩
  · rw [bind_ok hrun, bind_ok (show (get : Facet δ _) s = .ok s s from rfl)]
    cases hpending : s.pendingOwnerTransfer with
    | none => exact .inl ⟨⟨_, rfl⟩, fun _ _ hsome => nomatch hsome⟩
    | some pending =>
      dsimp only
      rcases check_run (sameEvmAddress pending.evmAddress signer)
        s!"portfolio{s.portfolioId} is being transferred to {q pending.evmAddress}, not {q signer}"
        s with ⟨hsame, hrun⟩ | ⟨hother, hrun⟩
      · rw [bind_ok hrun]
        refine .inr ⟨pending, hsource, rfl, hsame, ?_⟩
        by_cases hlate : pending.deadlineTimestampSeconds < now
        · rw [if_pos hlate]
          exact .inl ⟨hlate, _, rfl⟩
        · rw [if_neg hlate]
          exact .inr ⟨not_lt.mp hlate, rfl⟩
      · rw [bind_error hrun]
        refine .inl ⟨⟨_, rfl⟩, fun _ pending' hsome => ?_⟩
        cases hsome
        exact Bool.eq_false_iff.mpr hother
  · rw [bind_error hrun]
    exact .inl ⟨⟨_, rfl⟩, fun hnone => absurd hnone hsource⟩

end Facets

section Requests

/-- Requests other than the transfer's leave the owner and the pending transfer alone. -/
abbrev ownership (s : PortfolioState δ) : Option String × Option PendingOwnerTransfer :=
  (s.sourceAccountId, s.pendingOwnerTransfer)

abbrev KeepsOwnership {α : Type} (m : Facet δ α) : Prop :=
  Moves (StateProgram.Unchanged ownership) m

instance moves_check (p : Prop) [Decidable p] (message : String) :
    KeepsOwnership (check p message : Facet δ Unit) := by
  unfold check
  infer_instance

instance moves_insistAgoricOwned : KeepsOwnership (insistAgoricOwned : Facet δ Unit) := by
  unfold insistAgoricOwned
  infer_instance

instance moves_insistEvmOwned (message : String) :
    KeepsOwnership (insistEvmOwned message : Facet δ Unit) := by
  unfold insistEvmOwned
  infer_instance

instance moves_getDelegation (agentId : ℕ) (noStore : String) :
    KeepsOwnership (getDelegation agentId noStore : Facet δ PortfolioAgentInfo) := by
  apply moves_seq moves_get
  intro s
  cases s.delegations with
  | none => exact moves_throw _
  | some delegations =>
    change Moves _ (mapStoreGet delegations agentId "delegations")
    unfold mapStoreGet
    cases delegations.lookup agentId <;> infer_instance

instance moves_assertExternalDelegationTarget (agentId : ℕ) :
    KeepsOwnership (assertExternalDelegationTarget agentId : Facet δ Unit) := by
  unfold assertExternalDelegationTarget
  infer_instance

instance moves_bumpPolicyVersion :
    KeepsOwnership (bumpPolicyVersion : Facet δ ℕ) := by
  unfold bumpPolicyVersion
  infer_instance

instance moves_changePermissions (agentId : ℕ) (permissions : PortfolioPermissions) :
    KeepsOwnership (changePermissions agentId permissions : Facet δ Unit) := by
  unfold changePermissions setDelegation
  infer_instance

instance moves_revokeDelegation (agentId : ℕ) :
    KeepsOwnership (revokeDelegation agentId : Facet δ Unit) := by
  have hplanner : KeepsOwnership (modify fun s =>
      if s.plannerAgentId = some agentId then
        { s with plannerAgentId := none, enabledAutoFeatures := none }
      else s : Facet δ Unit) := by
    apply moves_modify
    intro s
    unfold StateProgram.Unchanged
    split <;> rfl
  unfold revokeDelegation setDelegation
  infer_instance

instance moves_startFlow (detail : FlowDetail) (steps : Option FundsFlowPlan) :
    KeepsOwnership (startFlow detail steps : Facet δ ℕ) := by
  unfold startFlow setFlow
  infer_instance

instance moves_updateTargetAllocation (allocation : TargetAllocation) :
    KeepsOwnership (updateTargetAllocation allocation : Facet δ ℕ) := by
  unfold updateTargetAllocation
  infer_instance

instance moves_startRebalance (allocation : Option TargetAllocation) (flow : Option FundsFlowPlan) :
    KeepsOwnership (startRebalance allocation flow : Facet δ ℕ) := by
  unfold startRebalance
  cases allocation <;> infer_instance

instance moves_evmRebalance (allocations : Option (List (PlaceRef × ℕ))) :
    KeepsOwnership (evmRebalance allocations : Facet δ ℕ) := by
  unfold evmRebalance
  cases allocations <;> infer_instance

theorem request_ownership {request : OwnerRequest} (hother : request.isTransfer = false)
    (s : PortfolioState δ) : ownership (finalState (ownerRequest request) s) = ownership s := by
  have hmoves : KeepsOwnership (ownerRequest request : Facet δ (Option ℕ)) := by
    cases request with
    | initiateTransfer | wakeTransfer | completeTransfer => cases hother
    | _ =>
      unfold ownerRequest
      infer_instance
  exact hmoves.rel s

theorem offer_of_owned {request : OwnerRequest} (hoffer : request.isOffer = true)
    {s : PortfolioState δ} (howned : s.sourceAccountId ≠ none) :
    finalState (ownerRequest request) s = s := by
  rcases insistAgoricOwned_run s with ⟨hsource, -⟩ | ⟨-, reason, hrun⟩
  · exact absurd hsource howned
  · have hstops : ∀ f : Unit → Facet δ (Option ℕ),
        finalState (insistAgoricOwned >>= f) s = s := by
      intro f
      unfold finalState
      rw [bind_error hrun]
    cases request with
    | offerRebalance | offerDeposit | offerSimpleRebalance | offerWithdraw => exact hstops _
    | _ => cases hoffer

theorem evm_of_unowned {request : OwnerRequest} (hevm : request.isEvm = true)
    {s : PortfolioState δ} (howned : s.sourceAccountId = none) :
    finalState (ownerRequest request) s = s := by
  have hstops : ∀ (message : String) (f : Unit → Facet δ (Option ℕ)),
      finalState (insistEvmOwned message >>= f) s = s := by
    intro message f
    have hrun : (insistEvmOwned message : Facet δ Unit) s = .error message s := by
      rcases check_run (s.sourceAccountId.isSome = true) message s with ⟨hsome, -⟩ | ⟨-, hrun⟩
      · rw [howned] at hsome
        cases hsome
      · exact hrun
    unfold finalState
    rw [bind_error hrun]
  cases request with
  | evmChangePermissions | evmRevoke | evmDeposit | evmWithdraw => exact hstops _ _
  | evmRebalance allocations =>
    change finalState (some <$> evmRebalance allocations) s = s
    unfold evmRebalance
    rw [map_bind]
    exact hstops _ _
  | _ => cases hevm

end Requests

section Wakeups

/-- The wakeups that remain when the timer service has taken the requests. -/
def remaining : List TimerRequest → List ℕ → List ℕ
  | [], wakeups => wakeups
  | .getCurrentTimestamp _ :: requests, wakeups => remaining requests wakeups
  | .setWakeup absValue :: requests, wakeups => remaining requests (wakeups ++ [absValue])
  | .cancel :: requests, _ => remaining requests []

theorem remaining_append (requests requests' : List TimerRequest) (wakeups : List ℕ) :
    remaining (requests ++ requests') wakeups =
      remaining requests' (remaining requests wakeups) := by
  induction requests generalizing wakeups with
  | nil => rfl
  | cons request requests ih => cases request <;> exact ih _

theorem mem_remaining {requests : List TimerRequest} {absValue : ℕ} (wakeups : List ℕ) :
    absValue ∈ remaining requests wakeups ↔
      (absValue ∈ wakeups ∧ .cancel ∉ requests) ∨ absValue ∈ remaining requests [] := by
  induction requests generalizing wakeups with
  | nil => simp [remaining]
  | cons request requests ih =>
    cases request with
    | getCurrentTimestamp call =>
      rw [remaining, remaining, ih]
      simp
    | setWakeup t =>
      have hfirst := ih ([] ++ [t])
      rw [remaining, remaining, ih, hfirst]
      simp only [List.mem_append, List.nil_append, List.mem_cons]
      tauto
    | cancel =>
      rw [remaining, remaining]
      simp

/-- A wakeup after the deadline is on its way, or one for the time after it is set. -/
def TransferWorld.WakeToCome (w : TransferWorld δ) (deadline : ℕ) : Prop :=
  (∃ absValue, .wake absValue ∈ w.toPortfolio ∧ deadline < absValue) ∨
    deadline + 1 ∈ remaining w.toTimer w.wakeups

end Wakeups

section Invariant

def TimerRequest.offer : TimerRequest → Option ℕ
  | .getCurrentTimestamp (.initiate offer _ _) => some offer
  | _ => none

def TimerMessage.offer : TimerMessage → Option ℕ
  | .currentTimestamp _ (.initiate offer _ _) => some offer
  | _ => none

/-- The offers that wait for the current time. -/
def TransferWorld.waiting (w : TransferWorld δ) : List ℕ :=
  w.toTimer.filterMap TimerRequest.offer ++ w.toPortfolio.filterMap TimerMessage.offer

/-- The offers whose results have been settled, each time they were. -/
def TransferWorld.settledOffers (w : TransferWorld δ) : List ℕ := w.settled.map Prod.fst

structure TransferInv (w : TransferWorld δ) : Prop where
  paired : w.resolver.isSome = w.portfolio.pendingOwnerTransfer.isSome
  owned : w.portfolio.sourceAccountId ≠ none → w.portfolio.pendingOwnerTransfer = none
  latest : ∀ pending offer, w.portfolio.pendingOwnerTransfer = some pending →
    w.resolver = some offer →
      w.initiated.getLast? = some ⟨offer, pending.evmAddress, pending.deadlineTimestampSeconds⟩
  /-- Each offer is settled once, or it is the pending one, or it waits for the time. -/
  results : (w.settledOffers ++ w.resolver.toList ++ w.waiting).Perm (List.range w.offers)
  initiated : ∀ d ∈ w.initiated, d.offer ∈ w.settledOffers ∨ w.resolver = some d.offer
  distinct : (w.initiated.map Designation.offer).Nodup
  armed : ∀ pending, w.portfolio.pendingOwnerTransfer = some pending →
    w.WakeToCome pending.deadlineTimestampSeconds

variable {w t : TransferWorld δ}

theorem TransferInv.init {portfolio : PortfolioState δ} (h : portfolio.pendingOwnerTransfer = none)
    (clock : ℕ) : TransferInv ({ portfolio, clock } : TransferWorld δ) where
  paired := by rw [h]; rfl
  owned _ := h
  latest _ _ _ hresolver := nomatch hresolver
  results := .refl _
  initiated := nofun
  distinct := List.nodup_nil
  armed _ hpending := nomatch h.symm.trans hpending

theorem TransferInv.pending (h : TransferInv w) :
    (w.portfolio.pendingOwnerTransfer = none ∧ w.resolver = none) ∨
      ∃ pending offer, w.portfolio.pendingOwnerTransfer = some pending ∧
        w.resolver = some offer := by
  have hpaired := h.paired
  cases hpending : w.portfolio.pendingOwnerTransfer with
  | none =>
    rw [hpending] at hpaired
    exact .inl ⟨rfl, Option.isSome_eq_false_iff.mp hpaired |> Option.isNone_iff_eq_none.mp⟩
  | some pending =>
    rw [hpending] at hpaired
    obtain ⟨offer, hoffer⟩ := Option.isSome_iff_exists.mp hpaired
    exact .inr ⟨pending, offer, rfl, hoffer⟩

theorem TransferInv.close (h : TransferInv w) {offer : ℕ} {result : TransferResult}
    (hresolver : w.resolver = some offer) (hpending : t.portfolio.pendingOwnerTransfer = none)
    (hnone : t.resolver = none) (hoffers : t.offers = w.offers)
    (hinitiated : t.initiated = w.initiated) (hsettled : t.settled = w.settled ++ [(offer, result)])
    (hwaiting : t.waiting = w.waiting) : TransferInv t := by
  have hsettledOffers : t.settledOffers = w.settledOffers ++ [offer] := by
    unfold TransferWorld.settledOffers
    rw [hsettled, List.map_append]
    rfl
  constructor
  case paired =>
    rw [hpending, hnone]
    rfl
  case owned => exact fun _ => hpending
  case latest => exact fun _ _ hsome => nomatch hpending.symm.trans hsome
  case results =>
    rw [hsettledOffers, hnone, hoffers, hwaiting, Option.toList_none, List.append_nil]
    have hresults := h.results
    rw [hresolver] at hresults
    exact hresults
  case initiated =>
    rw [hinitiated, hsettledOffers]
    intro d hd
    rcases h.initiated d hd with hin | hpend
    · exact .inl (List.mem_append_left _ hin)
    · cases hresolver.symm.trans hpend
      exact .inl (List.mem_append_right _ (List.mem_singleton_self _))
  case distinct =>
    rw [hinitiated]
    exact h.distinct
  case armed => exact fun _ hsome => nomatch hpending.symm.trans hsome

end Invariant

section Calls

variable {w : TransferWorld δ}

/-- No transfer is pending any more, and the result of the one that was is settled. -/
def TransferWorld.closed (w : TransferWorld δ) (sourceAccountId : Option String) (offer : ℕ)
    (result : TransferResult) : TransferWorld δ :=
  { w with
    portfolio := { w.portfolio with sourceAccountId, pendingOwnerTransfer := none }
    resolver := none
    settled := w.settled ++ [(offer, result)] }

/-- The transfer is the pending one. -/
def TransferWorld.designated (w : TransferWorld δ) (offer : ℕ) (evmAddress : String)
    (deadline : ℕ) : TransferWorld δ :=
  { w with
    portfolio := { w.portfolio with pendingOwnerTransfer := some ⟨evmAddress, deadline⟩ }
    resolver := some offer
    initiated := w.initiated ++ [⟨offer, evmAddress, deadline⟩]
    toTimer := w.toTimer ++ [.setWakeup (deadline + 1)] }

theorem settlePending_eq {offer : ℕ} (h : w.resolver = some offer) (result : TransferResult) :
    w.settlePending result =
      { w with resolver := none, settled := w.settled ++ [(offer, result)] } := by
  unfold TransferWorld.settlePending
  rw [h]
  rfl

theorem expire_eq {pending : PendingOwnerTransfer} {offer : ℕ}
    (hpending : w.portfolio.pendingOwnerTransfer = some pending)
    (hresolver : w.resolver = some offer) : ∃ reason,
      w.expire = w.closed w.portfolio.sourceAccountId offer (.rejected reason) := by
  have hsame : ({ w with portfolio := finalState expireTransfer w.portfolio } :
    TransferWorld δ).resolver = some offer := hresolver
  unfold TransferWorld.expire
  rw [hpending]
  dsimp only
  exact ⟨_, settlePending_eq hsame _⟩

theorem wake_cases (hpaired : w.resolver.isSome = w.portfolio.pendingOwnerTransfer.isSome)
    (absValue : ℕ) :
    (w.wake absValue = w ∧ ∀ pending, w.portfolio.pendingOwnerTransfer = some pending →
      absValue ≤ pending.deadlineTimestampSeconds) ∨
    ∃ pending offer reason, w.portfolio.pendingOwnerTransfer = some pending ∧
      w.resolver = some offer ∧ pending.deadlineTimestampSeconds < absValue ∧
      w.wake absValue = w.closed w.portfolio.sourceAccountId offer (.rejected reason) := by
  cases hpending : w.portfolio.pendingOwnerTransfer with
  | none =>
    refine .inl ⟨?_, nofun⟩
    unfold TransferWorld.wake
    rw [hpending]
  | some pending =>
    rw [hpending] at hpaired
    obtain ⟨offer, hresolver⟩ := Option.isSome_iff_exists.mp hpaired
    unfold TransferWorld.wake
    rw [hpending]
    dsimp only
    by_cases hlate : pending.deadlineTimestampSeconds < absValue
    · rw [if_pos hlate]
      obtain ⟨reason, hexpire⟩ := expire_eq hpending hresolver
      exact .inr ⟨pending, offer, reason, rfl, hresolver, hlate, hexpire⟩
    · rw [if_neg hlate]
      refine .inl ⟨rfl, fun pending' hsame => ?_⟩
      cases hsame
      exact not_lt.mp hlate

theorem complete_cases (hpaired : w.resolver.isSome = w.portfolio.pendingOwnerTransfer.isSome)
    (signer : String) (chainId now : ℕ) :
    (w.complete signer chainId now = w ∧ (w.portfolio.sourceAccountId = none →
      ∀ pending, w.portfolio.pendingOwnerTransfer = some pending →
        sameEvmAddress pending.evmAddress signer = false)) ∨
    ∃ pending offer, w.portfolio.sourceAccountId = none ∧
      w.portfolio.pendingOwnerTransfer = some pending ∧ w.resolver = some offer ∧
      sameEvmAddress pending.evmAddress signer = true ∧
      ((pending.deadlineTimestampSeconds < now ∧ ∃ reason, w.complete signer chainId now =
          (w.closed none offer (.rejected reason)).send .cancel) ∨
        (now ≤ pending.deadlineTimestampSeconds ∧ w.complete signer chainId now =
          (w.closed (some s!"eip155:{chainId}:{signer.toLower}") offer
            (.accepted s!"eip155:{chainId}:{signer.toLower}")).send .cancel)) := by
  rcases completeTransfer_run signer chainId now w.portfolio with
    ⟨⟨reason, hrun⟩, hrefused⟩ | ⟨pending, hsource, hpending, hsame, hends⟩
  · refine .inl ⟨?_, hrefused⟩
    unfold TransferWorld.complete
    rw [hrun]
    dsimp only
    rw [if_neg]
    rintro ⟨hsome, hnone⟩
    rw [hnone] at hsome
    cases hsome
  · right
    have hsome := hpaired.trans (congrArg Option.isSome hpending)
    obtain ⟨offer, hresolver⟩ := Option.isSome_iff_exists.mp hsome
    refine ⟨pending, offer, hsource, hpending, hresolver, hsame, ?_⟩
    unfold TransferWorld.complete
    rcases hends with ⟨hlate, reason, hrun⟩ | ⟨htime, hrun⟩
    · rw [hrun]
      dsimp only
      rw [if_pos ⟨by rw [hpending]; rfl, rfl⟩]
      obtain ⟨text, hexpire⟩ := expire_eq hpending hresolver
      rw [hsource] at hexpire
      exact .inl ⟨hlate, text, congrArg (TransferWorld.send .cancel) hexpire⟩
    · rw [hrun]
      dsimp only
      have hmoved : ∀ portfolio, ({ w with portfolio } : TransferWorld δ).resolver = some offer :=
        fun _ => hresolver
      rw [settlePending_eq (hmoved _)]
      exact .inr ⟨htime, rfl⟩

theorem initiate_cases (hpaired : w.resolver.isSome = w.portfolio.pendingOwnerTransfer.isSome)
    (offer : ℕ) (evmAddress : String) (deadline now : ℕ) :
    (∃ reason, w.initiate offer evmAddress deadline now = w.settle offer (.rejected reason)) ∨
    (w.portfolio.sourceAccountId = none ∧
      ((w.portfolio.pendingOwnerTransfer = none ∧ w.resolver = none ∧
          w.initiate offer evmAddress deadline now = w.designated offer evmAddress deadline) ∨
        ∃ superseded reason, w.resolver = some superseded ∧
          w.initiate offer evmAddress deadline now =
            ((w.closed none superseded (.rejected reason)).send .cancel).designated
              offer evmAddress deadline)) := by
  rcases initiateTransfer_run evmAddress deadline now w.portfolio with
    ⟨reason, hrun⟩ | ⟨hsource, -, hrun⟩
  · left
    unfold TransferWorld.initiate
    rw [hrun]
    exact ⟨reason, rfl⟩
  · right
    refine ⟨hsource, ?_⟩
    unfold TransferWorld.initiate
    rw [hrun]
    dsimp only
    cases hpending : w.portfolio.pendingOwnerTransfer with
    | none =>
      rw [hpending] at hpaired
      have hnone := Option.not_isSome_iff_eq_none.mp (Bool.eq_false_iff.mp hpaired)
      exact .inl ⟨rfl, hnone, rfl⟩
    | some pending =>
      rw [hpending] at hpaired
      obtain ⟨superseded, hresolver⟩ := Option.isSome_iff_exists.mp hpaired
      refine .inr ⟨superseded, "superseded by a newer ownership transfer", hresolver, ?_⟩
      simp only [Option.isSome_some, if_true]
      rw [settlePending_eq hresolver]
      unfold TransferWorld.designated TransferWorld.closed
      rw [← hsource]
      rfl

end Calls

section Steps

variable {w t : TransferWorld δ}

theorem waiting_send_cancel (w : TransferWorld δ) : (w.send .cancel).waiting = w.waiting := by
  unfold TransferWorld.waiting TransferWorld.send
  rw [List.filterMap_append]
  exact congrArg (· ++ _) (List.append_nil _)

theorem waiting_designated (w : TransferWorld δ) (offer : ℕ) (evmAddress : String) (deadline : ℕ) :
    (w.designated offer evmAddress deadline).waiting = w.waiting := by
  unfold TransferWorld.waiting TransferWorld.designated
  rw [List.filterMap_append]
  exact congrArg (· ++ _) (List.append_nil _)

theorem TransferInv.taken (h : TransferInv w) {now chainId : ℕ} {signer : String}
    {rest : List TimerMessage}
    (hhead : w.toPortfolio = .currentTimestamp now (.complete signer chainId) :: rest) :
    TransferInv { w with toPortfolio := rest } :=
  { h with
    results := by
      have hresults := h.results
      unfold TransferWorld.waiting at hresults
      rw [hhead] at hresults
      exact hresults
    armed := by
      intro pending hpending
      rcases h.armed pending hpending with ⟨absValue, hmem, hlt⟩ | hset
      · rw [hhead] at hmem
        rcases List.mem_cons.mp hmem with heq | hmem
        · cases heq
        · exact .inl ⟨absValue, hmem, hlt⟩
      · exact .inr hset }

theorem TransferInv.complete (h : TransferInv w) (signer : String) (chainId now : ℕ) :
    TransferInv (w.complete signer chainId now) := by
  rcases complete_cases h.paired signer chainId now with
    ⟨heq, -⟩ | ⟨pending, offer, -, -, hresolver, -, ⟨-, reason, heq⟩ | ⟨-, heq⟩⟩
  · rw [heq]
    exact h
  · rw [heq]
    exact h.close hresolver rfl rfl rfl rfl rfl (waiting_send_cancel _)
  · rw [heq]
    exact h.close hresolver rfl rfl rfl rfl rfl (waiting_send_cancel _)

theorem TransferInv.wake (h : TransferInv w) {absValue : ℕ} {rest : List TimerMessage}
    (hhead : w.toPortfolio = .wake absValue :: rest) :
    TransferInv (TransferWorld.wake absValue { w with toPortfolio := rest }) := by
  have hwaiting : ({ w with toPortfolio := rest } : TransferWorld δ).waiting = w.waiting := by
    unfold TransferWorld.waiting
    rw [hhead]
    rfl
  rcases wake_cases (w := { w with toPortfolio := rest }) h.paired absValue with
    ⟨heq, hearly⟩ | ⟨pending, offer, reason, -, hresolver, -, heq⟩
  · rw [heq]
    exact { h with
      results := by
        rw [hwaiting]
        exact h.results
      armed := by
        intro pending hpending
        rcases h.armed pending hpending with ⟨absValue', hmem, hlt⟩ | hset
        · rw [hhead] at hmem
          rcases List.mem_cons.mp hmem with hsame | hmem
          · cases hsame
            exact absurd hlt (not_lt.mpr (hearly pending hpending))
          · exact .inl ⟨absValue', hmem, hlt⟩
        · exact .inr hset }
  · rw [heq]
    exact h.close hresolver rfl rfl rfl rfl rfl hwaiting

theorem TransferInv.initiate (h : TransferInv w) {now offer deadline : ℕ} {evmAddress : String}
    {rest : List TimerMessage}
    (hhead : w.toPortfolio = .currentTimestamp now (.initiate offer evmAddress deadline) :: rest) :
    TransferInv (TransferWorld.initiate offer evmAddress deadline now
      { w with toPortfolio := rest }) := by
  have hresults := h.results
  have hwaiting : w.waiting = w.toTimer.filterMap TimerRequest.offer ++
      offer :: rest.filterMap TimerMessage.offer := by
    unfold TransferWorld.waiting
    rw [hhead]
    rfl
  rw [hwaiting] at hresults
  have hcount := List.perm_iff_count.mp hresults
  have hnew : offer ∉ w.initiated.map Designation.offer := by
    intro hmem
    obtain ⟨d, hd, hoffer⟩ := List.mem_map.mp hmem
    have hnodup := hresults.nodup_iff.mpr List.nodup_range
    have hdisjoint := (List.nodup_append.mp hnodup).2.2
    have hin : offer ∈ w.settledOffers ++ w.resolver.toList := by
      rw [← hoffer]
      rcases h.initiated d hd with hsettled | hresolver
      · exact List.mem_append_left _ hsettled
      · rw [hresolver]
        exact List.mem_append_right _ (List.mem_singleton_self _)
    exact hdisjoint offer hin offer (List.mem_append_right _ List.mem_cons_self) rfl
  have hdistinct : ((w.initiated ++ [Designation.mk offer evmAddress deadline]).map
      Designation.offer).Nodup := by
    rw [List.map_append, List.map_singleton]
    refine List.nodup_append.mpr ⟨h.distinct, List.nodup_singleton _, ?_⟩
    rintro a ha b hb rfl
    cases List.mem_singleton.mp hb
    exact hnew ha
  have harmed : ∀ toTimer : List TimerRequest, deadline + 1 ∈
      remaining (toTimer ++ [.setWakeup (deadline + 1)]) w.wakeups := by
    intro toTimer
    rw [remaining_append]
    exact List.mem_append_right _ (List.mem_singleton_self _)
  rcases initiate_cases (w := { w with toPortfolio := rest }) h.paired offer evmAddress deadline
      now with ⟨reason, heq⟩ | ⟨hsource, ⟨hpending, hresolver, heq⟩ | ⟨superseded, reason,
        hresolver, heq⟩⟩
  · rw [heq]
    exact { h with
      results := by
        apply List.perm_iff_count.mpr
        intro a
        have ha := hcount a
        unfold TransferWorld.settledOffers TransferWorld.waiting TransferWorld.settle at *
        dsimp only
        simp only [List.map_append, List.map_cons, List.map_nil, List.count_append,
          List.count_cons, List.count_nil] at ha ⊢
        omega
      initiated := by
        intro d hd
        rcases h.initiated d hd with hsettled | hpend
        · refine .inl ?_
          unfold TransferWorld.settledOffers TransferWorld.settle
          rw [List.map_append]
          exact List.mem_append_left _ hsettled
        · exact .inr hpend
      armed := by
        intro pending hpending
        rcases h.armed pending hpending with ⟨absValue, hmem, hlt⟩ | hset
        · rw [hhead] at hmem
          rcases List.mem_cons.mp hmem with hsame | hmem
          · cases hsame
          · exact .inl ⟨absValue, hmem, hlt⟩
        · exact .inr hset }
  · rw [heq]
    constructor
    case paired => rfl
    case owned => exact fun howned => absurd hsource howned
    case latest =>
      intro pending offer' hpending hoffer
      cases hpending
      cases hoffer
      exact List.getLast?_concat
    case results =>
      apply List.perm_iff_count.mpr
      intro a
      have ha := hcount a
      have hnone : w.resolver = none := hresolver
      rw [hnone] at ha
      rw [waiting_designated]
      unfold TransferWorld.settledOffers TransferWorld.waiting TransferWorld.designated at *
      dsimp only at ha ⊢
      simp only [Option.toList_none, Option.toList_some, List.count_append, List.count_cons,
        List.count_nil] at ha ⊢
      omega
    case initiated =>
      intro d hd
      rcases List.mem_append.mp hd with hd | hd
      · rcases h.initiated d hd with hsettled | hpend
        · exact .inl hsettled
        · cases hpend.symm.trans (show w.resolver = none from hresolver)
      · cases List.mem_singleton.mp hd
        exact .inr rfl
    case distinct => exact hdistinct
    case armed =>
      intro pending hpending
      cases hpending
      exact .inr (harmed _)
  · rw [heq]
    have hsettledOffers : (w.settled ++ [(superseded, TransferResult.rejected reason)]).map
        Prod.fst = w.settledOffers ++ [superseded] := List.map_append
    constructor
    case paired => rfl
    case owned => exact fun howned => absurd rfl howned
    case latest =>
      intro pending offer' hpending hoffer
      cases hpending
      cases hoffer
      exact List.getLast?_concat
    case results =>
      apply List.perm_iff_count.mpr
      intro a
      have ha := hcount a
      have hsome : w.resolver = some superseded := hresolver
      rw [hsome] at ha
      rw [waiting_designated, waiting_send_cancel]
      unfold TransferWorld.settledOffers TransferWorld.waiting TransferWorld.designated
        TransferWorld.send TransferWorld.closed at *
      dsimp only at ha ⊢
      simp only [List.map_append, List.map_cons, List.map_nil, Option.toList_some,
        List.count_append, List.count_cons, List.count_nil] at ha ⊢
      omega
    case initiated =>
      intro d hd
      rcases List.mem_append.mp hd with hd | hd
      · left
        change d.offer ∈ (w.settled ++ [(superseded, TransferResult.rejected reason)]).map Prod.fst
        rw [hsettledOffers]
        rcases h.initiated d hd with hsettled | hpend
        · exact List.mem_append_left _ hsettled
        · cases hpend.symm.trans (show w.resolver = some superseded from hresolver)
          exact List.mem_append_right _ (List.mem_singleton_self _)
      · cases List.mem_singleton.mp hd
        exact .inr rfl
    case distinct => exact hdistinct
    case armed =>
      intro pending hpending
      cases hpending
      exact .inr (harmed _)

theorem TransferInv.portfolioTakes (h : TransferInv w) (hstep : portfolioTakes w = some t) :
    TransferInv t := by
  unfold Portfolio.portfolioTakes at hstep
  split at hstep
  · cases hstep
  case h_2 absValue call rest hhead =>
    cases hstep
    cases call with
    | initiate offer evmAddress deadline => exact h.initiate hhead
    | complete signer chainId => exact (h.taken hhead).complete signer chainId absValue
  case h_3 absValue rest hhead =>
    cases hstep
    exact h.wake hhead

theorem TransferInv.timerTakes (h : TransferInv w) (hstep : timerTakes w = some t) :
    TransferInv t := by
  have hresults := h.results
  unfold TransferWorld.waiting at hresults
  unfold Portfolio.timerTakes at hstep
  split at hstep
  · cases hstep
  case h_2 call toTimer hhead =>
    cases hstep
    rw [hhead] at hresults
    exact { h with
      results := by
        apply List.perm_iff_count.mpr
        intro a
        have ha := List.perm_iff_count.mp hresults a
        unfold TransferWorld.settledOffers TransferWorld.waiting at *
        cases call <;>
        · simp only [List.filterMap_append, List.filterMap_cons, List.filterMap_nil,
            TimerRequest.offer, TimerMessage.offer, List.count_append, List.count_cons,
            List.count_nil] at ha ⊢
          omega
      armed := by
        intro pending hpending
        rcases h.armed pending hpending with ⟨absValue, hmem, hlt⟩ | hset
        · exact .inl ⟨absValue, List.mem_append_left _ hmem, hlt⟩
        · rw [hhead] at hset
          exact .inr hset }
  case h_3 absValue toTimer hhead =>
    rw [hhead] at hresults
    cases hstep
    by_cases hpast : absValue ≤ w.clock
    · rw [if_pos hpast]
      exact { h with
        results := by
          unfold TransferWorld.waiting
          dsimp only
          rw [List.filterMap_append]
          exact (List.append_nil (w.toPortfolio.filterMap TimerMessage.offer)).symm ▸ hresults
        armed := by
          intro pending hpending
          rcases h.armed pending hpending with ⟨absValue', hmem, hlt⟩ | hset
          · exact .inl ⟨absValue', List.mem_append_left _ hmem, hlt⟩
          · rw [hhead, remaining, mem_remaining] at hset
            rcases hset with ⟨hmem, hcancel⟩ | hset
            · rcases List.mem_append.mp hmem with hmem | hmem
              · exact .inr ((mem_remaining _).mpr (.inl ⟨hmem, hcancel⟩))
              · -- The wakeup that is set fires at once.
                rw [← List.mem_singleton.mp hmem] at hpast
                exact .inl ⟨w.clock, List.mem_append_right _ (List.mem_singleton_self _), hpast⟩
            · exact .inr ((mem_remaining _).mpr (.inr hset)) }
    · rw [if_neg hpast]
      exact { h with
        results := hresults
        armed := by
          intro pending hpending
          rcases h.armed pending hpending with hcoming | hset
          · exact .inl hcoming
          · rw [hhead] at hset
            exact .inr hset }
  case h_4 toTimer hhead =>
    cases hstep
    rw [hhead] at hresults
    exact { h with
      results := hresults
      armed := by
        intro pending hpending
        rcases h.armed pending hpending with hcoming | hset
        · exact .inl hcoming
        · rw [hhead] at hset
          exact .inr hset }

theorem TransferInv.timerFires (h : TransferInv w) {i : ℕ}
    (hstep : transferStep w (.timerFires i) = some t) : TransferInv t := by
  unfold transferStep at hstep
  dsimp only at hstep
  cases hwakeup : w.wakeups[i]? with
  | none =>
    rw [hwakeup] at hstep
    cases hstep
  | some absValue =>
    rw [hwakeup] at hstep
    obtain ⟨hpast, hstep⟩ := Option.ite_none_right_eq_some.mp hstep
    cases hstep
    obtain ⟨hi, hget⟩ := List.getElem?_eq_some_iff.mp hwakeup
    exact { h with
      results := by
        have hresults := h.results
        unfold TransferWorld.waiting at hresults ⊢
        dsimp only
        rw [List.filterMap_append]
        exact (List.append_nil (w.toPortfolio.filterMap TimerMessage.offer)).symm ▸ hresults
      armed := by
        intro pending hpending
        rcases h.armed pending hpending with ⟨absValue', hmem, hlt⟩ | hset
        · exact .inl ⟨absValue', List.mem_append_left _ hmem, hlt⟩
        · rw [mem_remaining] at hset
          rcases hset with ⟨hmem, hcancel⟩ | hset
          · have hsplit := (List.getElem_cons_eraseIdx_perm hi).mem_iff.mpr hmem
            rw [hget] at hsplit
            rcases List.mem_cons.mp hsplit with heq | hmem
            · -- The wakeup fires that the pending transfer waits for.
              rw [← heq] at hpast
              exact .inl ⟨w.clock, List.mem_append_right _ (List.mem_singleton_self _), hpast⟩
            · exact .inr ((mem_remaining _).mpr (.inl ⟨hmem, hcancel⟩))
          · exact .inr ((mem_remaining _).mpr (.inr hset)) }

theorem TransferInv.ask (h : TransferInv w) {call : TransferCall} {offers : ℕ}
    (hresults : (w.settledOffers ++ w.resolver.toList ++
      ({ w with offers }.send (.getCurrentTimestamp call) : TransferWorld δ).waiting).Perm
        (List.range offers)) :
    TransferInv ({ w with offers }.send (.getCurrentTimestamp call) : TransferWorld δ) :=
  { h with
    results := hresults
    armed := by
      intro pending hpending
      rcases h.armed pending hpending with hcoming | hset
      · exact .inl hcoming
      · refine .inr ?_
        unfold TransferWorld.send
        rw [remaining_append]
        exact hset }

theorem TransferInv.step (h : TransferInv w) {event : TransferEvent}
    (hstep : transferStep w event = some t) : TransferInv t := by
  cases event with
  | request request =>
    obtain ⟨hother, hstep⟩ := Option.ite_none_left_eq_some.mp hstep
    cases hstep
    have hsame := request_ownership (Bool.eq_false_iff.mpr hother) w.portfolio
    have hsource := congrArg Prod.fst hsame
    have hpending := congrArg Prod.snd hsame
    dsimp only at hsource hpending
    exact { h with
      paired := by
        rw [hpending]
        exact h.paired
      owned := by
        rw [hpending, hsource]
        exact h.owned
      latest := by
        rw [hpending]
        exact h.latest
      armed := by
        rw [hpending]
        exact h.armed }
  | transferOwnership evmAddress deadline =>
    cases hstep
    split
    · exact h
    · split
      · apply h.ask
        apply List.perm_iff_count.mpr
        intro a
        have ha := List.perm_iff_count.mp h.results a
        unfold TransferWorld.waiting TransferWorld.send at *
        simp only [List.filterMap_append, List.filterMap_cons, List.filterMap_nil,
          TimerRequest.offer, List.range_succ, List.count_append, List.count_cons,
          List.count_nil] at ha ⊢
        omega
      · exact h
  | acceptOwnership signer chainId =>
    cases hstep
    apply h.ask
    have hresults := h.results
    unfold TransferWorld.waiting TransferWorld.send at *
    dsimp only
    rw [List.filterMap_append]
    exact (List.append_nil (w.toTimer.filterMap TimerRequest.offer)).symm ▸ hresults
  | timerTakes => exact h.timerTakes hstep
  | timerFires i => exact h.timerFires hstep
  | portfolioTakes => exact h.portfolioTakes hstep
  | clock now =>
    obtain ⟨-, hstep⟩ := Option.ite_none_right_eq_some.mp hstep
    cases hstep
    exact { h with }

end Steps

section Safety

variable {w t : TransferWorld δ}

/-- The result of the transfer is not settled yet. It is the latest one, and it can be accepted
until a wakeup that is still to come. -/
structure TransferWorld.Awaits (w : TransferWorld δ) (d : Designation) : Prop where
  unowned : w.portfolio.sourceAccountId = none
  latest : w.initiated.getLast? = some d
  pending : w.portfolio.pendingOwnerTransfer = some ⟨d.evmAddress, d.deadline⟩
  wake : w.WakeToCome d.deadline

structure TransferSafe (w : TransferWorld δ) : Prop where
  owned : w.portfolio.sourceAccountId ≠ none → w.portfolio.pendingOwnerTransfer = none
  once : w.settledOffers.Nodup
  accounted : (w.settledOffers ++ w.resolver.toList ++ w.waiting).Perm (List.range w.offers)
  results : ∀ d ∈ w.initiated, d.offer ∉ w.settledOffers ↔ w.Awaits d

/-- The awaited transfer is accepted in time, which settles its result. -/
structure TransferWorld.Accepts (w t : TransferWorld δ) (d : Designation) (signer : String)
    (chainId now : ℕ) : Prop where
  awaits : w.Awaits d
  designated : sameEvmAddress d.evmAddress signer = true
  inTime : now ≤ d.deadline
  portfolio : t.portfolio = { w.portfolio with
    sourceAccountId := some s!"eip155:{chainId}:{signer.toLower}", pendingOwnerTransfer := none }
  settled : t.settled = w.settled ++ [(d.offer, .accepted s!"eip155:{chainId}:{signer.toLower}")]

/-- The awaited transfer is overdue and expires, which settles its result. -/
structure TransferWorld.Expires (w t : TransferWorld δ) (d : Designation) (now : ℕ) : Prop where
  awaits : w.Awaits d
  overdue : d.deadline < now
  portfolio : t.portfolio = { w.portfolio with pendingOwnerTransfer := none }
  settled : ∃ reason, t.settled = w.settled ++ [(d.offer, .rejected reason)]

/-- What a step does to the owner, whichever step it is. -/
structure TransferStepSafe (w : TransferWorld δ) (event : TransferEvent) (t : TransferWorld δ) :
    Prop where
  /-- Only by accepting the awaited transfer does an account become the owner. -/
  owner : t.portfolio.sourceAccountId = w.portfolio.sourceAccountId ∨
    ∃ d signer chainId now rest, event = .portfolioTakes ∧
      w.toPortfolio = .currentTimestamp now (.complete signer chainId) :: rest ∧
      w.Accepts t d signer chainId now
  offers : w.portfolio.sourceAccountId ≠ none →
    (∀ request, event = .request request → request.isOffer = true → t = w) ∧
      ∀ evmAddress deadline, event = .transferOwnership evmAddress deadline → t = w
  evm : w.portfolio.sourceAccountId = none →
    ∀ request, event = .request request → request.isEvm = true → t = w
  initiate : ∀ now offer evmAddress deadline rest, event = .portfolioTakes →
    w.toPortfolio = .currentTimestamp now (.initiate offer evmAddress deadline) :: rest →
      (∃ reason, t = { w with
        toPortfolio := rest, settled := w.settled ++ [(offer, .rejected reason)] }) ∨
      (w.portfolio.sourceAccountId = none ∧
        t.initiated = w.initiated ++ [⟨offer, evmAddress, deadline⟩] ∧
        t.Awaits ⟨offer, evmAddress, deadline⟩)
  complete : ∀ now signer chainId rest, event = .portfolioTakes →
    w.toPortfolio = .currentTimestamp now (.complete signer chainId) :: rest →
      (∃ d, w.Accepts t d signer chainId now) ∨
      (∃ d, w.Expires t d now ∧ sameEvmAddress d.evmAddress signer = true) ∨
      (t = { w with toPortfolio := rest } ∧
        ∀ d, w.Awaits d → sameEvmAddress d.evmAddress signer = false)
  wake : ∀ absValue rest, event = .portfolioTakes → w.toPortfolio = .wake absValue :: rest →
      (∃ d, w.Expires t d absValue) ∨
      (t = { w with toPortfolio := rest } ∧ ∀ d, w.Awaits d → absValue ≤ d.deadline)

theorem TransferInv.awaits (h : TransferInv w) {pending : PendingOwnerTransfer} {offer : ℕ}
    (hpending : w.portfolio.pendingOwnerTransfer = some pending)
    (hresolver : w.resolver = some offer) :
    w.Awaits ⟨offer, pending.evmAddress, pending.deadlineTimestampSeconds⟩ where
  unowned := by
    by_contra howned
    cases hpending.symm.trans (h.owned howned)
  latest := h.latest pending offer hpending hresolver
  pending := hpending
  wake := h.armed pending hpending

theorem TransferInv.safe (h : TransferInv w) : TransferSafe w := by
  have hnodup := h.results.nodup_iff.mpr List.nodup_range
  have hclosed := (List.nodup_append.mp hnodup).1
  refine ⟨h.owned, (List.nodup_append.mp hclosed).1, h.results, fun d hd => ⟨fun hopen => ?_, ?_⟩⟩
  · have hresolver : w.resolver = some d.offer := (h.initiated d hd).resolve_left hopen
    rcases h.pending with ⟨-, hnone⟩ | ⟨pending, offer, hpending, hoffer⟩
    · cases hnone.symm.trans hresolver
    · have hawaits := h.awaits hpending hoffer
      -- The offers of initiations are distinct, so this one is the latest.
      have hsame : d.offer = offer := Option.some_inj.mp (hresolver.symm.trans hoffer)
      have heq := List.inj_on_of_nodup_map h.distinct hd (List.mem_of_getLast? hawaits.latest) hsame
      rw [heq]
      exact hawaits
  · intro hawaits hsettled
    rcases h.pending with ⟨hnone, -⟩ | ⟨pending, offer, hpending, hresolver⟩
    · cases hnone.symm.trans hawaits.pending
    · have hlatest := hawaits.latest.symm.trans (h.latest pending offer hpending hresolver)
      have hoffer : d.offer = offer := by
        rw [Option.some_inj.mp hlatest]
      have hdisjoint := (List.nodup_append.mp hclosed).2.2 d.offer hsettled offer
      rw [hresolver] at hdisjoint
      exact hdisjoint (List.mem_singleton_self offer) hoffer

theorem TransferInv.complete_safe (h : TransferInv w) {now chainId : ℕ} {signer : String}
    {rest : List TimerMessage}
    (ht : t = TransferWorld.complete signer chainId now { w with toPortfolio := rest }) :
    (∃ d, w.Accepts t d signer chainId now) ∨
      (∃ d, w.Expires t d now ∧ sameEvmAddress d.evmAddress signer = true) ∨
      (t = { w with toPortfolio := rest } ∧
        ∀ d, w.Awaits d → sameEvmAddress d.evmAddress signer = false) := by
  rcases complete_cases (w := { w with toPortfolio := rest }) h.paired signer chainId now with
    ⟨heq, hrefused⟩ | ⟨pending, offer, hsource, hpending, hresolver, hsame,
      ⟨hlate, reason, heq⟩ | ⟨htime, heq⟩⟩
  · rw [heq] at ht
    exact .inr (.inr ⟨ht, fun d hd => hrefused hd.unowned _ hd.pending⟩)
  · rw [heq] at ht
    have hportfolio : t.portfolio = { w.portfolio with pendingOwnerTransfer := none } := by
      rw [ht, ← hsource]
      rfl
    have hsettled : t.settled = w.settled ++ [(offer, .rejected reason)] := by
      rw [ht]
      rfl
    exact .inr (.inl ⟨_, ⟨h.awaits hpending hresolver, hlate, hportfolio, reason, hsettled⟩, hsame⟩)
  · rw [heq] at ht
    refine .inl ⟨_, h.awaits hpending hresolver, hsame, htime, ?_, ?_⟩
    · rw [ht]
      rfl
    · rw [ht]
      rfl

theorem TransferInv.wake_safe (h : TransferInv w) {absValue : ℕ} {rest : List TimerMessage}
    (ht : t = TransferWorld.wake absValue { w with toPortfolio := rest }) :
    (∃ d, w.Expires t d absValue) ∨
      (t = { w with toPortfolio := rest } ∧ ∀ d, w.Awaits d → absValue ≤ d.deadline) := by
  rcases wake_cases (w := { w with toPortfolio := rest }) h.paired absValue with
    ⟨heq, hearly⟩ | ⟨pending, offer, reason, hpending, hresolver, hlate, heq⟩
  · rw [heq] at ht
    exact .inr ⟨ht, fun d hd => hearly _ hd.pending⟩
  · rw [heq] at ht
    refine .inl ⟨_, h.awaits hpending hresolver, hlate, ?_, reason, ?_⟩
    · rw [ht]
      rfl
    · rw [ht]
      rfl

theorem TransferInv.awaits_designated (h : TransferInv t) {offer deadline : ℕ}
    {evmAddress : String} (ht : t = w.designated offer evmAddress deadline) :
    t.initiated = w.initiated ++ [⟨offer, evmAddress, deadline⟩] ∧
      t.Awaits ⟨offer, evmAddress, deadline⟩ := by
  have hpending : t.portfolio.pendingOwnerTransfer = some ⟨evmAddress, deadline⟩ := by
    rw [ht]
    rfl
  have hresolver : t.resolver = some offer := by
    rw [ht]
    rfl
  have hinitiated : t.initiated = w.initiated ++ [⟨offer, evmAddress, deadline⟩] := by
    rw [ht]
    rfl
  exact ⟨hinitiated, h.awaits hpending hresolver⟩

theorem TransferInv.initiate_safe (h : TransferInv w) {now offer deadline : ℕ}
    {evmAddress : String} {rest : List TimerMessage}
    (hhead : w.toPortfolio = .currentTimestamp now (.initiate offer evmAddress deadline) :: rest)
    (ht : t = TransferWorld.initiate offer evmAddress deadline now { w with toPortfolio := rest }) :
    (∃ reason, t = { w with
        toPortfolio := rest, settled := w.settled ++ [(offer, .rejected reason)] }) ∨
      (w.portfolio.sourceAccountId = none ∧
        t.initiated = w.initiated ++ [⟨offer, evmAddress, deadline⟩] ∧
        t.Awaits ⟨offer, evmAddress, deadline⟩) := by
  have hinv : TransferInv t := by
    rw [ht]
    exact h.initiate hhead
  rcases initiate_cases (w := { w with toPortfolio := rest }) h.paired offer evmAddress deadline
      now with ⟨reason, heq⟩ | ⟨hsource, ⟨-, -, heq⟩ | ⟨superseded, reason, -, heq⟩⟩
  · exact .inl ⟨reason, ht.trans heq⟩
  · obtain ⟨hinitiated, hawaits⟩ := hinv.awaits_designated (ht.trans heq)
    exact .inr ⟨hsource, hinitiated, hawaits⟩
  · obtain ⟨hinitiated, hawaits⟩ := hinv.awaits_designated (ht.trans heq)
    exact .inr ⟨hsource, hinitiated, hawaits⟩

theorem portfolioTakes_cons {message : TimerMessage} {rest : List TimerMessage}
    (hhead : w.toPortfolio = message :: rest) (hstep : portfolioTakes w = some t) :
    t = match (motive := TimerMessage → TransferWorld δ) message with
      | .currentTimestamp absValue call =>
        TransferWorld.call absValue { w with toPortfolio := rest } call
      | .wake absValue => TransferWorld.wake absValue { w with toPortfolio := rest } := by
  unfold portfolioTakes at hstep
  rw [hhead] at hstep
  cases message with
  | currentTimestamp absValue call => exact (Option.some_inj.mp hstep).symm
  | wake absValue => exact (Option.some_inj.mp hstep).symm

theorem TransferInv.takes_owner (h : TransferInv w)
    (hstep : Portfolio.portfolioTakes w = some t) :
    t.portfolio.sourceAccountId = w.portfolio.sourceAccountId ∨
      ∃ d signer chainId now rest,
        w.toPortfolio = .currentTimestamp now (.complete signer chainId) :: rest ∧
        w.Accepts t d signer chainId now := by
  cases hqueue : w.toPortfolio with
  | nil =>
    unfold Portfolio.portfolioTakes at hstep
    rw [hqueue] at hstep
    cases hstep
  | cons message rest =>
    have ht := portfolioTakes_cons hqueue hstep
    rcases message with ⟨now, ⟨offer, evmAddress, deadline⟩ | ⟨signer, chainId⟩⟩ | absValue
    · left
      rcases h.initiate_safe hqueue ht with ⟨reason, heq⟩ | ⟨hsource, -, hawaits⟩
      · rw [heq]
      · rw [hsource, hawaits.unowned]
    · rcases h.complete_safe ht with ⟨d, haccepts⟩ | ⟨d, hexpires, -⟩ | ⟨heq, -⟩
      · exact .inr ⟨d, signer, chainId, now, rest, rfl, haccepts⟩
      · rw [hexpires.portfolio]
        exact .inl rfl
      · rw [heq]
        exact .inl rfl
    · left
      rcases h.wake_safe ht with ⟨d, hexpires⟩ | ⟨heq, -⟩
      · rw [hexpires.portfolio]
      · rw [heq]

theorem TransferInv.stepSafe (h : TransferInv w) {event : TransferEvent}
    (hstep : transferStep w event = some t) : TransferStepSafe w event t where
  owner := by
    cases event with
    | request request =>
      obtain ⟨hother, hstep⟩ := Option.ite_none_left_eq_some.mp hstep
      cases hstep
      exact .inl (congrArg Prod.fst
        (request_ownership (Bool.eq_false_iff.mpr hother) w.portfolio))
    | transferOwnership evmAddress deadline =>
      cases hstep
      left
      split
      · rfl
      · split <;> rfl
    | acceptOwnership signer chainId =>
      cases hstep
      exact .inl rfl
    | timerTakes =>
      left
      change Portfolio.timerTakes w = some t at hstep
      unfold Portfolio.timerTakes at hstep
      split at hstep <;> cases hstep
      · rfl
      · split <;> rfl
      · rfl
    | timerFires i =>
      left
      unfold transferStep at hstep
      dsimp only at hstep
      split at hstep
      · cases hstep
      · obtain ⟨-, hstep⟩ := Option.ite_none_right_eq_some.mp hstep
        cases hstep
        rfl
    | portfolioTakes =>
      rcases h.takes_owner hstep with hsame | ⟨d, signer, chainId, now, rest, hhead, haccepts⟩
      · exact .inl hsame
      · exact .inr ⟨d, signer, chainId, now, rest, rfl, hhead, haccepts⟩
    | clock now =>
      obtain ⟨-, hstep⟩ := Option.ite_none_right_eq_some.mp hstep
      cases hstep
      exact .inl rfl
  offers := by
    intro howned
    refine ⟨fun request hevent hoffer => ?_, fun evmAddress deadline hevent => ?_⟩
    · rw [hevent] at hstep
      obtain ⟨-, hstep⟩ := Option.ite_none_left_eq_some.mp hstep
      rw [offer_of_owned hoffer howned] at hstep
      exact (Option.some_inj.mp hstep).symm
    · rw [hevent] at hstep
      rcases insistAgoricOwned_run w.portfolio with ⟨hsource, -⟩ | ⟨-, reason, hrun⟩
      · exact absurd hsource howned
      · unfold transferStep at hstep
        dsimp only at hstep
        rw [hrun] at hstep
        exact (Option.some_inj.mp hstep).symm
  evm := by
    intro hsource request hevent hevm
    rw [hevent] at hstep
    obtain ⟨-, hstep⟩ := Option.ite_none_left_eq_some.mp hstep
    rw [evm_of_unowned hevm hsource] at hstep
    exact (Option.some_inj.mp hstep).symm
  initiate := by
    intro now offer evmAddress deadline rest hevent hhead
    rw [hevent] at hstep
    exact h.initiate_safe hhead (portfolioTakes_cons hhead hstep)
  complete := by
    intro now signer chainId rest hevent hhead
    rw [hevent] at hstep
    exact h.complete_safe (portfolioTakes_cons hhead hstep)
  wake := by
    intro absValue rest hevent hhead
    rw [hevent] at hstep
    exact h.wake_safe (portfolioTakes_cons hhead hstep)

theorem transferInv_reachable (h : (ownershipTransfer δ).Reachable anyStep w) :
    TransferInv w := by
  apply h.invariant
  · rintro _ ⟨portfolio, clock, hpending, rfl⟩
    exact TransferInv.init hpending clock
  · exact fun _ _ _ hinv _ hstep => hinv.step hstep

/-- In every order of the steps a portfolio has one owner, and only the latest designee takes
it over, in time and once. Each transfer's result is settled once, at the latest when the
wakeup after its deadline comes. -/
theorem ownershipTransfer_safe (h : (ownershipTransfer δ).Reachable anyStep w) :
    TransferSafe w ∧ ∀ event t, transferStep w event = some t → TransferStepSafe w event t :=
  have hinv := transferInv_reachable h
  ⟨hinv.safe, fun _ _ hstep => hinv.stepSafe hstep⟩

/-- A transfer is pending, and its designee's acceptance is the next message. -/
theorem ownershipTransfer_safe_designated :
    ∃ w t : TransferWorld Unit, TransferSafe w ∧
      w.Accepts t ⟨0, "0x00000000000000000000000000000000000000a1", 5⟩
        "0x00000000000000000000000000000000000000a1" 1 3 := by
  let evmAddress : String := "0x00000000000000000000000000000000000000a1"
  have hshape : isEvmAddressShape evmAddress = true := by
    have hlength : evmAddress.length = 42 := by decide
    simp [isEvmAddressShape, hlength, evmAddress]
  let start : TransferWorld Unit := { portfolio := { portfolioId := 7 }, clock := 3 }
  let waiting := { start with offers := 1 }.send (.getCurrentTimestamp (.initiate 0 evmAddress 5))
  have hwaiting : (ownershipTransfer Unit).Reachable anyStep waiting := by
    have hstart : (ownershipTransfer Unit).Reachable anyStep start := .init ⟨_, _, rfl, rfl⟩
    apply hstart.step (a := .transferOwnership evmAddress 5) trivial
    exact congrArg some (if_pos hshape)
  let pending : TransferWorld Unit := { waiting with
    portfolio := { portfolioId := 7, pendingOwnerTransfer := some ⟨evmAddress, 5⟩ }
    resolver := some 0
    initiated := [⟨0, evmAddress, 5⟩]
    wakeups := [6]
    toTimer := []
    toPortfolio := [.currentTimestamp 3 (.complete evmAddress 1)] }
  have hpending : (ownershipTransfer Unit).Reachable anyStep pending := by
    have hrun : (ownershipTransfer Unit).runWhile anyStep waiting [.timerTakes, .portfolioTakes,
      .acceptOwnership evmAddress 1, .timerTakes, .timerTakes] = some pending := rfl
    exact hwaiting.of_runWhile hrun
  obtain ⟨hsafe, hsteps⟩ := ownershipTransfer_safe hpending
  have hawaits := (hsafe.results ⟨0, evmAddress, 5⟩ List.mem_cons_self).mp List.not_mem_nil
  refine ⟨pending, TransferWorld.complete evmAddress 1 3 { pending with toPortfolio := [] },
    hsafe, ?_⟩
  rcases (hsteps .portfolioTakes _ rfl).complete 3 evmAddress 1 [] rfl rfl with
    ⟨d, haccepts⟩ | ⟨d, hexpires, -⟩ | ⟨-, hother⟩
  · cases haccepts.awaits.latest
    exact haccepts
  · cases hexpires.awaits.latest
    exact absurd hexpires.overdue (by decide)
  · cases (hother _ hawaits).symm.trans (decide_eq_true rfl)

end Safety

end AgoricSdk.Portfolio
