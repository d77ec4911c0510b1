import AgoricSdk.Portfolio.PortfolioRuns

/-!
Plans and the policy in runs of a portfolio. A plan is settled once. The history of
the policy agrees with what the flows say of their operations, and a plan that the
planner has answered uses up its sync state.
-/

namespace AgoricSdk.Portfolio

open StateProgram

variable {δ : Type}

section Histories

/-- The steps, one after the other. -/
def PortfolioWorld.run (w : PortfolioWorld δ) (actions : List (Action δ)) : PortfolioWorld δ :=
  actions.foldl PortfolioWorld.step w

/-- The changes of the policy that were made for a flow. -/
def PortfolioWorld.changesFor (w : PortfolioWorld δ) (flowId : Nat) : List PolicyChange :=
  w.changes.filter fun change => change.flowId = some flowId

/-- The sync state with which a call is made. -/
def syncStateOf (c : Contract δ) : Action δ → Option PortfolioSyncState
  | .observationsVerified turn _ =>
    match c.turns.lookup turn with
    | some (.setTargetAllocation _ params) => some params.syncState
    | _ => none
  | .rebalance _ params | .claimRewards _ params | .plannerRebalance params _
  | .plannerClaimRewards params _ => some params.syncState
  | .resolvePlan _ _ policyVersion rebalanceCount _ | .rejectPlan _ _ policyVersion rebalanceCount =>
    some { policyVersion, rebalanceCount }
  | _ => none

def Succeeds (w : PortfolioWorld δ) (a : Action δ) : Prop :=
  ∃ flowId c, perform a w.contract = .ok flowId c

instance (w : PortfolioWorld δ) (a : Action δ) : Decidable (Succeeds w a) :=
  match h : perform a w.contract with
  | .ok flowId c => .isTrue ⟨flowId, c, h⟩
  | .error _ _ => .isFalse fun ⟨_, _, hok⟩ => nomatch h.symm.trans hok

/-- The call is made with this sync state, and succeeds. -/
def AcceptedAt (w : PortfolioWorld δ) (a : Action δ) (syncState : PortfolioSyncState) : Prop :=
  syncStateOf w.contract a = some syncState ∧ Succeeds w a

instance (w : PortfolioWorld δ) (a : Action δ) (syncState : PortfolioSyncState) :
    Decidable (AcceptedAt w a syncState) := inferInstanceAs (Decidable (_ ∧ _))

/-- The planner's answers, and its own submissions. -/
def IsPlanner : Action δ → Prop
  | .resolvePlan _ _ _ _ _ | .rejectPlan _ _ _ _ | .plannerRebalance _ _
  | .plannerClaimRewards _ _ => True
  | _ => False

def IsAnswer : Action δ → Prop
  | .resolvePlan _ _ _ _ _ | .rejectPlan _ _ _ _ => True
  | _ => False

/-- The step rejects the plan of this flow. -/
structure Rejects (w : PortfolioWorld δ) (a : Action δ) (flowId : Nat) (flow : RunningFlow) : Prop where
  running : (w.step a).portfolio.flowsRunning.lookup flowId = some flow
  rejected : ∃ reason, flow.sync = some (.rejected reason)
  before : ∀ old, w.portfolio.flowsRunning.lookup flowId = some old → old.awaitingSteps

/-- A plan for an allocation that is pending passes the checks of the mandate. -/
def CommitsPending (w : PortfolioWorld δ) (flowId : Nat) : Action δ → Prop
  | .resolvePlan id plan version count observations =>
    id = flowId ∧ ∃ flow, PlanVetted w.portfolio flowId flow plan version count observations ∧
      flow.detail.pendingTargetAllocation.isSome
  | _ => False

def SameSettings (s t : PortfolioState δ) : Prop :=
  t.policyVersion = s.policyVersion ∧ t.targetAllocation = s.targetAllocation

/-- What the history of the policy has for the operation of a flow. -/
def recorded (flowId : Nat) (operation : InitiatingOperation) : List PolicyChange :=
  match operation.status with
  | .ok policyVersion => [{
      flowId := some flowId
      targetAllocation := some operation.targetAllocation
      policyVersion }]
  | _ => []

/-- The pair of version and count does not go back. -/
def NotBefore (s t : PortfolioState δ) : Prop :=
  s.policyVersion < t.policyVersion ∨
    s.policyVersion = t.policyVersion ∧ s.rebalanceCount ≤ t.rebalanceCount

structure PlansAndPolicy (w : PortfolioWorld δ) (a : Action δ) : Prop where
  /-- The plan of a flow is settled once. -/
  settled : ∀ actions flowId flow later outcome,
    w.portfolio.flowsRunning.lookup flowId = some flow → flow.sync = some outcome →
    (w.run actions).portfolio.flowsRunning.lookup flowId = some later → later.sync = some outcome
  /-- An operation is done if the allocation was set for it, once and at that version. -/
  done : ∀ flowId flow operation policyVersion,
    w.portfolio.flowsRunning.lookup flowId = some flow → flow.detail.operation = some operation →
    (operation.status = .ok policyVersion ↔ w.changesFor flowId = [{
      flowId := some flowId
      targetAllocation := some operation.targetAllocation
      policyVersion }])
  /-- Else the policy was not changed for it. -/
  undone : ∀ flowId flow operation,
    w.portfolio.flowsRunning.lookup flowId = some flow → flow.detail.operation = some operation →
    (∀ policyVersion, operation.status ≠ .ok policyVersion) → w.changesFor flowId = []
  rejected : ∀ flowId flow, Rejects w a flowId flow → ¬ CommitsPending w flowId a →
    SameSettings w.portfolio (w.step a).portfolio
  notBefore : NotBefore w.portfolio (w.step a).portfolio
  changed : ¬ SameSettings w.portfolio (w.step a).portfolio →
    w.portfolio.policyVersion < (w.step a).portfolio.policyVersion
  /-- An answer of the planner fails and changes nothing, or it counts. -/
  answered : IsAnswer a → (w.step a).portfolio = w.portfolio ∨
    Later w.portfolio (w.step a).portfolio
  planned : IsPlanner a → Succeeds w a → Later w.portfolio (w.step a).portfolio
  /-- The sync state of a planner's call, or one that changes the policy, is used up by it. -/
  once : ∀ actions b syncState, AcceptedAt w a syncState →
    IsPlanner a ∨ ¬ SameSettings w.portfolio (w.step a).portfolio →
      ¬ AcceptedAt ((w.step a).run actions) b syncState

end Histories

section Records

variable {w : PortfolioWorld δ} {a : Action δ} {flowId : Nat}

theorem changesFor_of_version
    (h : (w.step a).portfolio.policyVersion = w.portfolio.policyVersion) :
    (w.step a).changesFor flowId = w.changesFor flowId := by
  have hchanges : (w.step a).changes = w.changes := if_pos h
  unfold PortfolioWorld.changesFor
  rw [hchanges]

theorem changes_of_version
    (h : (w.step a).portfolio.policyVersion ≠ w.portfolio.policyVersion) :
    (w.step a).changes = w.changes ++ [{
      flowId := authorOf w.contract a
      targetAllocation := (w.step a).portfolio.targetAllocation
      policyVersion := (w.step a).portfolio.policyVersion }] := if_neg h

theorem changesFor_of_other (h : authorOf w.contract a ≠ some flowId) :
    (w.step a).changesFor flowId = w.changesFor flowId := by
  by_cases hversion : (w.step a).portfolio.policyVersion = w.portfolio.policyVersion
  · exact changesFor_of_version hversion
  · unfold PortfolioWorld.changesFor
    rw [changes_of_version hversion, List.filter_append, List.filter_singleton]
    simp [h]

theorem changesFor_of_author (h : authorOf w.contract a = some flowId)
    (hversion : (w.step a).portfolio.policyVersion ≠ w.portfolio.policyVersion) :
    (w.step a).changesFor flowId = w.changesFor flowId ++ [{
      flowId := some flowId
      targetAllocation := (w.step a).portfolio.targetAllocation
      policyVersion := (w.step a).portfolio.policyVersion }] := by
  unfold PortfolioWorld.changesFor
  rw [changes_of_version hversion, List.filter_append, List.filter_singleton, h]
  simp

/-- The history has what the flows say. -/
structure Recorded (w : PortfolioWorld δ) : Prop where
  flows : FlowsKept w.portfolio
  authors : ∀ change ∈ w.changes, ∀ flowId, change.flowId = some flowId →
    flowId < w.portfolio.nextFlowId
  operations : ∀ flowId flow operation, w.portfolio.flowsRunning.lookup flowId = some flow →
    flow.detail.operation = some operation → w.changesFor flowId = recorded flowId operation

theorem Recorded.changesFor_fresh (h : Recorded w) : w.changesFor w.portfolio.nextFlowId = [] := by
  unfold PortfolioWorld.changesFor
  rw [List.filter_eq_nil_iff]
  intro change hchange hflow
  have := h.authors change hchange _ (of_decide_eq_true hflow)
  omega

theorem recorded_of_uncommitted {operation : InitiatingOperation}
    (h : ∀ version, operation.status ≠ .ok version) : recorded flowId operation = [] := by
  unfold recorded
  cases hstatus : operation.status with
  | ok version => exact absurd hstatus (h version)
  | _ => rfl

theorem recorded_of_part {flow : RunningFlow} {operation : InitiatingOperation}
    (hnone : w.changesFor flowId = []) (hauthor : authorOf w.contract a = some flowId)
    (hpolicy : PolicyPart w.portfolio (w.step a).portfolio flow)
    (hcommitted : ∀ target, IsCommitted flow target →
      (w.step a).portfolio.policyVersion = w.portfolio.policyVersion + 1)
    (hoperation : flow.detail.operation = some operation) :
    (w.step a).changesFor flowId = recorded flowId operation := by
  cases hpolicy with
  | kept hversion _ _ =>
    rw [changesFor_of_version hversion, hnone, recorded_of_uncommitted]
    intro version hstatus
    have := hcommitted operation.targetAllocation ⟨version, by rw [hoperation, ← hstatus]⟩
    omega
  | committed target hdone htarget hversion =>
    rw [changesFor_of_author hauthor (by omega), hnone, htarget]
    cases hoperation.symm.trans hdone
    rfl

theorem recorded_rejected (flowId : Nat) {flow : RunningFlow} {reason : String} {operation : InitiatingOperation}
    (h : (flow.rejected reason).detail.operation = some operation) :
    ∃ before, flow.detail.operation = some before ∧
      recorded flowId before = recorded flowId operation := by
  unfold RunningFlow.rejected at h
  by_cases hpending : flow.detail.pendingTargetAllocation.isSome
  · obtain ⟨target, htarget⟩ := Option.isSome_iff_exists.mp hpending
    simp only [hpending, if_true, operation_withStatus _ htarget] at h
    cases h
    exact ⟨_, operation_of_pending htarget, rfl⟩
  · simp only [if_neg hpending] at h
    exact ⟨operation, h, rfl⟩

theorem authors_step (h : Recorded w)
    (hnext : w.portfolio.nextFlowId ≤ (w.step a).portfolio.nextFlowId)
    (hauthor : ∀ flowId, authorOf w.contract a = some flowId →
      (w.step a).portfolio.policyVersion ≠ w.portfolio.policyVersion →
        flowId < (w.step a).portfolio.nextFlowId) :
    ∀ change ∈ (w.step a).changes, ∀ flowId, change.flowId = some flowId →
      flowId < (w.step a).portfolio.nextFlowId := by
  intro change hchange flowId hflow
  by_cases hversion : (w.step a).portfolio.policyVersion = w.portfolio.policyVersion
  · have hsame : (w.step a).changes = w.changes := if_pos hversion
    rw [hsame] at hchange
    exact (h.authors change hchange flowId hflow).trans_le hnext
  · rw [changes_of_version hversion, List.mem_append, List.mem_singleton] at hchange
    rcases hchange with hchange | rfl
    · exact (h.authors change hchange flowId hflow).trans_le hnext
    · exact hauthor flowId hflow hversion

theorem Recorded.insert (h : Recorded w) {flow : RunningFlow}
    (hflows : (w.step a).portfolio.flowsRunning = w.portfolio.flowsRunning.insert flowId flow)
    (hauthor : authorOf w.contract a = some flowId)
    (hnext : w.portfolio.nextFlowId ≤ (w.step a).portfolio.nextFlowId)
    (hid : flowId < (w.step a).portfolio.nextFlowId)
    (hoperation : ∀ operation, flow.detail.operation = some operation →
      (w.step a).changesFor flowId = recorded flowId operation) : Recorded (w.step a) where
  flows := h.flows.step a
  authors := by
    apply authors_step h hnext
    intro id hsame _
    cases hauthor.symm.trans hsame
    exact hid
  operations := by
    intro id found operation hfound hfoundOperation
    rw [hflows, Table.lookup_insert] at hfound
    split at hfound
    · next heq =>
      cases hfound
      rw [heq]
      exact hoperation operation hfoundOperation
    · next hne =>
      have hother : authorOf w.contract a ≠ some id := by
        rw [hauthor]
        exact fun hsame => hne (Option.some.inj hsame).symm
      rw [changesFor_of_other hother]
      exact h.operations id found operation hfound hfoundOperation

theorem Recorded.started (h : Recorded w) {flow : RunningFlow}
    (hauthor : authorOf w.contract a = some w.portfolio.nextFlowId)
    (hstarted : Started w.portfolio (w.step a).portfolio flow) : Recorded (w.step a) := by
  have hnext := hstarted.nextFlowId
  apply h.insert hstarted.flows hauthor
  · omega
  · omega
  · intro operation hoperation
    exact recorded_of_part h.changesFor_fresh hauthor hstarted.policy hstarted.committed hoperation

theorem Recorded.step (h : Recorded w) (a : Action δ) : Recorded (w.step a) := by
  cases h.flows.effect a with
  | quiet hquiet =>
    have hversion : (w.step a).portfolio.policyVersion = w.portfolio.policyVersion :=
      hquiet.policyVersion
    constructor
    · exact h.flows.step a
    · exact authors_step h hquiet.nextFlowId.ge fun _ _ hne => absurd hversion hne
    · intro flowId flow operation hflow hoperation
      rw [changesFor_of_version hversion]
      obtain ⟨old, hold, rfl | ⟨_, reason, rfl⟩⟩ := hquiet.flows flowId flow hflow
      · exact h.operations flowId flow operation hold hoperation
      · obtain ⟨before, hbefore, hrecorded⟩ := recorded_rejected flowId hoperation
        rw [← hrecorded]
        exact h.operations flowId old before hold hbefore
  | policy hauthor hpolicy =>
    constructor
    · exact h.flows.step a
    · apply authors_step h hpolicy.nextFlowId.ge
      intro flowId hsame
      rw [hauthor] at hsame
      cases hsame
    · intro flowId flow operation hflow hoperation
      rw [changesFor_of_other (by rw [hauthor]; exact nofun)]
      rw [hpolicy.flows] at hflow
      exact h.operations flowId flow operation hflow hoperation
  | owner request flow _ hauthor hstarted => exact h.started hauthor hstarted.toStarted
  | agent client required _ hauthor hsubmitted =>
    obtain ⟨info, flow, -, -, -, hstarted⟩ := hsubmitted
    exact h.started hauthor hstarted.toStarted
  | planned flowId plan version count observations old flow ha hplanned hvetted _ =>
    have hauthor : authorOf w.contract a = some flowId := ha ▸ rfl
    have hid := h.flows.allocated flowId old hplanned.running
    apply h.insert hplanned.flows hauthor hplanned.nextFlowId.ge
    · exact hid.trans_le hplanned.nextFlowId.ge
    · intro operation hoperation
      rcases hplanned.detail with ⟨hsame, _, hversion⟩ | ⟨target, hpending, _, hversion, _⟩
      · rw [changesFor_of_version hversion]
        exact h.operations flowId old operation hplanned.running (hsame ▸ hoperation)
      · have hnone : w.changesFor flowId = [] :=
          h.operations flowId old _ hplanned.running (operation_of_pending hpending)
        exact recorded_of_part hnone hauthor hplanned.policy (fun _ _ => hversion) hoperation

theorem recorded_of_reachable {ok : PortfolioWorld δ → Action δ → Prop}
    (h : (portfolioSystem δ).Reachable ok w) : Recorded w := by
  apply h.invariant
  · rintro _ ⟨portfolioId, sourceAccountId, rfl⟩
    exact ⟨flowsKept_open portfolioId sourceAccountId, fun _ h => absurd h List.not_mem_nil,
      fun _ _ _ h => absurd h (no_flow_open portfolioId sourceAccountId)⟩
  · intro w a t hrecorded _ hstep
    cases hstep
    exact hrecorded.step a

end Records

section Settled

variable {w : PortfolioWorld δ} {a : Action δ}

theorem outcome_step (h : FlowsKept w.portfolio) (a : Action δ) {flowId : Nat} {later : RunningFlow}
    (hlater : (w.step a).portfolio.flowsRunning.lookup flowId = some later)
    (hid : flowId < w.portfolio.nextFlowId) :
    ∃ flow, w.portfolio.flowsRunning.lookup flowId = some flow ∧
      ∀ outcome, flow.sync = some outcome → later.sync = some outcome := by
  have hsame (hold : w.portfolio.flowsRunning.lookup flowId = some later) :
      ∃ flow, w.portfolio.flowsRunning.lookup flowId = some flow ∧
        ∀ outcome, flow.sync = some outcome → later.sync = some outcome :=
    ⟨later, hold, fun _ h => h⟩
  cases h.effect a with
  | quiet hquiet =>
    obtain ⟨old, hold, rfl | ⟨hawaiting, _, _⟩⟩ := hquiet.flows flowId later hlater
    · exact hsame hold
    · refine ⟨old, hold, fun outcome houtcome => ?_⟩
      simp [RunningFlow.awaitingSteps, houtcome] at hawaiting
  | policy _ hpolicy =>
    rw [hpolicy.flows] at hlater
    exact hsame hlater
  | owner _ flow _ _ hstarted =>
    rcases flow_of_insert hstarted.flows hlater with ⟨rfl, rfl⟩ | hold
    · exact absurd hid (lt_irrefl _)
    · exact hsame hold
  | agent client required _ _ hsubmitted =>
    obtain ⟨info, flow, -, -, -, hstarted⟩ := hsubmitted
    rcases flow_of_insert hstarted.flows hlater with ⟨rfl, rfl⟩ | hold
    · exact absurd hid (lt_irrefl _)
    · exact hsame hold
  | planned id plan version count observations old flow _ hplanned _ _ =>
    rcases flow_of_insert hplanned.flows hlater with ⟨rfl, rfl⟩ | hold
    · refine ⟨old, hplanned.running, fun outcome houtcome => ?_⟩
      have hawaiting := hplanned.awaiting
      simp [RunningFlow.awaitingSteps, houtcome] at hawaiting
    · exact hsame hold

theorem nextFlowId_step (h : FlowsKept w.portfolio) (a : Action δ) :
    w.portfolio.nextFlowId ≤ (w.step a).portfolio.nextFlowId := by
  cases h.effect a with
  | quiet hquiet => exact hquiet.nextFlowId.ge
  | policy _ hpolicy => exact hpolicy.nextFlowId.ge
  | owner _ flow _ _ hstarted => exact hstarted.nextFlowId ▸ Nat.le_succ _
  | agent _ _ _ _ hsubmitted =>
    obtain ⟨info, flow, -, -, -, hstarted⟩ := hsubmitted
    exact hstarted.nextFlowId ▸ Nat.le_succ _
  | planned _ _ _ _ _ _ _ _ hplanned _ _ => exact hplanned.nextFlowId.ge

theorem flowsKept_run (h : FlowsKept w.portfolio) (actions : List (Action δ)) :
    FlowsKept (w.run actions).portfolio := by
  induction actions generalizing w with
  | nil => exact h
  | cons a actions ih => exact ih (h.step a)

theorem outcome_run (h : FlowsKept w.portfolio) (actions : List (Action δ)) {flowId : Nat}
    {later : RunningFlow}
    (hlater : (w.run actions).portfolio.flowsRunning.lookup flowId = some later)
    (hid : flowId < w.portfolio.nextFlowId) :
    ∃ flow, w.portfolio.flowsRunning.lookup flowId = some flow ∧
      ∀ outcome, flow.sync = some outcome → later.sync = some outcome := by
  induction actions generalizing w with
  | nil => exact ⟨later, hlater, fun _ h => h⟩
  | cons a actions ih =>
    obtain ⟨mid, hmid, hkept⟩ := ih (h.step a) hlater (hid.trans_le (nextFlowId_step h a))
    obtain ⟨flow, hflow, hbefore⟩ := outcome_step h a hmid hid
    exact ⟨flow, hflow, fun outcome houtcome => hkept outcome (hbefore outcome houtcome)⟩

theorem settings_of_rejects (h : FlowsKept w.portfolio) {flowId : Nat} {flow : RunningFlow}
    (hrejects : Rejects w a flowId flow) (hcommits : ¬ CommitsPending w flowId a) :
    SameSettings w.portfolio (w.step a).portfolio := by
  have hnew (hold : w.portfolio.flowsRunning.lookup flowId = some flow) : False := by
    obtain ⟨reason, hsync⟩ := hrejects.rejected
    have hawaiting := hrejects.before flow hold
    simp [RunningFlow.awaitingSteps, hsync] at hawaiting
  cases h.effect a with
  | quiet hquiet => exact ⟨hquiet.policyVersion, hquiet.targetAllocation⟩
  | policy _ hpolicy =>
    have hrunning := hrejects.running
    rw [hpolicy.flows] at hrunning
    exact (hnew hrunning).elim
  | owner _ started _ _ hstarted =>
    rcases flow_of_insert hstarted.flows hrejects.running with ⟨rfl, rfl⟩ | hold
    · obtain ⟨reason, hsync⟩ := hrejects.rejected
      exact absurd hsync (hstarted.unrejected reason)
    · exact (hnew hold).elim
  | agent client required _ _ hsubmitted =>
    obtain ⟨info, started, -, -, -, hstarted⟩ := hsubmitted
    rcases flow_of_insert hstarted.flows hrejects.running with ⟨rfl, rfl⟩ | hold
    · exact hstarted.refused hrejects.rejected
    · exact (hnew hold).elim
  | planned id plan version count observations old planned ha hplanned hvetted _ =>
    rcases flow_of_insert hplanned.flows hrejects.running with ⟨rfl, rfl⟩ | hold
    · cases hplanned.policy with
      | kept hversion htarget _ => exact ⟨hversion, htarget⟩
      | committed target _ _ hversion =>
        rcases hplanned.detail with ⟨_, _, hsame⟩ | ⟨pending, hpending, _⟩
        · omega
        · subst ha
          exact absurd ⟨rfl, old, hvetted, hpending ▸ rfl⟩ hcommits
    · exact (hnew hold).elim

end Settled

section SyncStates

variable {w : PortfolioWorld δ} {a : Action δ} {s t u : PortfolioState δ}

theorem NotBefore.trans (h : NotBefore s t) (h' : NotBefore t u) : NotBefore s u := by
  unfold NotBefore at *
  omega

theorem PolicyPart.notBefore {flow : RunningFlow} (h : PolicyPart s t flow) : NotBefore s t := by
  cases h with
  | kept hversion _ hcount => exact .inr ⟨hversion.symm, hcount⟩
  | committed _ _ _ hversion => exact .inl (by omega)

theorem PolicyPart.changed {flow : RunningFlow} (h : PolicyPart s t flow)
    (hchanged : ¬ SameSettings s t) : s.policyVersion < t.policyVersion := by
  cases h with
  | kept hversion htarget _ => exact absurd ⟨hversion, htarget⟩ hchanged
  | committed _ _ _ hversion => omega

theorem notBefore_step (h : FlowsKept w.portfolio) (a : Action δ) :
    NotBefore w.portfolio (w.step a).portfolio := by
  cases h.effect a with
  | quiet hquiet => exact .inr ⟨hquiet.policyVersion.symm, hquiet.rebalanceCount⟩
  | policy _ hpolicy => exact .inl (hpolicy.policyVersion ▸ Nat.lt_succ_self _)
  | owner _ flow _ _ hstarted => exact hstarted.policy.notBefore
  | agent _ _ _ _ hsubmitted =>
    obtain ⟨info, flow, -, -, -, hstarted⟩ := hsubmitted
    exact hstarted.policy.notBefore
  | planned _ _ _ _ _ _ _ _ hplanned _ _ => exact hplanned.policy.notBefore

theorem notBefore_run (h : FlowsKept w.portfolio) (actions : List (Action δ)) :
    NotBefore w.portfolio (w.run actions).portfolio := by
  induction actions generalizing w with
  | nil => exact .inr ⟨rfl, le_rfl⟩
  | cons a actions ih => exact (notBefore_step h a).trans (ih (h.step a))

theorem changed_step (h : FlowsKept w.portfolio)
    (hchanged : ¬ SameSettings w.portfolio (w.step a).portfolio) :
    w.portfolio.policyVersion < (w.step a).portfolio.policyVersion := by
  cases h.effect a with
  | quiet hquiet => exact absurd ⟨hquiet.policyVersion, hquiet.targetAllocation⟩ hchanged
  | policy _ hpolicy => exact hpolicy.policyVersion ▸ Nat.lt_succ_self _
  | owner _ flow _ _ hstarted => exact hstarted.policy.changed hchanged
  | agent _ _ _ _ hsubmitted =>
    obtain ⟨info, flow, -, -, -, hstarted⟩ := hsubmitted
    exact hstarted.policy.changed hchanged
  | planned _ _ _ _ _ _ _ _ hplanned _ _ => exact hplanned.policy.changed hchanged

/-- The sync state is the one that the portfolio is at. -/
def CurrentAt (s : PortfolioState δ) (syncState : PortfolioSyncState) : Prop :=
  s.policyVersion = syncState.policyVersion ∧ s.rebalanceCount = syncState.rebalanceCount

/-- The facet succeeds only at this sync state. -/
def NeedsCurrent {α : Type} (m : Facet δ α) (syncState : PortfolioSyncState) : Prop :=
  ∀ s, Wp m (fun _ _ => CurrentAt s syncState) (fun _ _ => True) s

section Calls

variable {α : Type} {client : PortfolioDelegationClient} {agentId : Nat}

theorem wp_of_holds {p : Prop} (m : Facet δ α) (h : p) :
    Wp m (fun _ _ => p) (fun _ _ => True) s := by
  unfold Wp
  cases m s <;> trivial

theorem checkVersion_current {syncState : PortfolioSyncState} (next : Unit → Facet δ α) :
    NeedsCurrent (checkVersion syncState.policyVersion syncState.rebalanceCount >>= next :
      Facet δ α) syncState := by
  intro s
  rw [wp_bind]
  exact checkVersion_spec (fun hversion hcount => wp_of_holds _ ⟨hversion, hcount⟩)
    fun _ _ => trivial

theorem submitClaimRewards_current (params : DelegatedParams) :
    NeedsCurrent (submitClaimRewards client agentId params : Facet δ Nat) params.syncState := by
  intro s
  unfold submitClaimRewards
  rw [wp_bind]
  exact getAuthorizedDelegation_spec (fun _ _ => checkVersion_current _ s) fun _ => trivial

theorem submitRebalance_current (params : DelegatedParams) :
    NeedsCurrent (submitRebalance client agentId params : Facet δ Nat) params.syncState := by
  intro s
  unfold submitRebalance
  rw [wp_bind]
  exact getAuthorizedDelegation_spec (fun _ _ => checkVersion_current _ s) fun _ => trivial

theorem submitTargetAllocation_current (params : DelegatedSetTargetAllocationParams)
    (verified : Option VerifiedPortfolioObservations) :
    NeedsCurrent (submitTargetAllocation client agentId params verified : Facet δ Nat)
      params.syncState := by
  intro s
  unfold submitTargetAllocation
  rw [wp_bind]
  exact getAuthorizedDelegation_spec (fun _ _ => checkVersion_current _ s) fun _ => trivial

theorem continueSetTargetAllocation_current (params : DelegatedSetTargetAllocationParams)
    (verified : Option VerifiedPortfolioObservations) :
    NeedsCurrent (continueSetTargetAllocation client params verified : Facet δ Nat)
      params.syncState := by
  intro s
  unfold continueSetTargetAllocation
  rw [wp_bind]
  refine getAuthorizedDelegation_spec (fun _ _ => ?_) fun _ => trivial
  rw [wp_bind, wp_get, wp_bind]
  refine check_spec (fun _ => ?_) fun _ => trivial
  rw [wp_bind]
  exact check_spec (fun _ => submitTargetAllocation_current params verified s) fun _ => trivial

theorem resolvePlan_current {flowId policyVersion rebalanceCount : Nat} {plan : FundsFlowPlan}
    {observations : Option PlanObservations} (h : FlowsKept s) :
    Wp (resolvePlan flowId plan policyVersion rebalanceCount observations)
      (fun _ _ => CurrentAt s { policyVersion, rebalanceCount }) (fun _ _ => True) s := by
  unfold resolvePlan vetPlannerPlan
  simp only [wp_bind, wp_get, wp_attempt]
  refine ofExcept_spec (fun _ _ => ?_) fun _ _ => trivial
  apply validateAndCommitPlanPolicy_spec (fun flow hflow hp => (h.pending flowId flow hflow hp).2)
  · intro reason
    exact submitVersion_spec (fun hversion hcount => wp_of_holds _ ⟨hversion, hcount⟩)
      fun _ _ => trivial
  · intro _ _ hversion hcount _ _
    have hcurrent : CurrentAt s { policyVersion, rebalanceCount } := ⟨hversion, hcount⟩
    exact submitVersion_spec (fun _ _ => wp_of_holds _ hcurrent) fun _ _ => trivial
  · intro _ _ _ hversion hcount _ _
    have hcurrent : CurrentAt s { policyVersion, rebalanceCount } := ⟨hversion, hcount⟩
    exact submitVersion_spec (fun _ _ => wp_of_holds _ hcurrent) fun _ _ => trivial

theorem rejectPlan_current {flowId policyVersion rebalanceCount : Nat} {reason : String} :
    NeedsCurrent (rejectPlan flowId reason policyVersion rebalanceCount : Facet δ Unit)
      { policyVersion, rebalanceCount } := by
  intro s
  unfold rejectPlan
  rw [wp_bind]
  exact submitVersion_spec (fun hversion hcount => wp_of_holds _ ⟨hversion, hcount⟩)
    fun _ _ => trivial

theorem planner_current {c : Contract δ} {feature : PortfolioAutoFeatures → Bool} {name : String}
    {submit : PortfolioDelegationClient → Facet δ Nat} {syncState : PortfolioSyncState}
    (hsubmit : ∀ client, NeedsCurrent (submit client) syncState)
    (next : Nat → Call δ α) :
    Wp (do
      let client ← plannerClient feature name
      let flowId ← onPortfolio (submit client)
      next flowId) (fun _ _ => CurrentAt c.portfolio syncState) (fun _ _ => True) c := by
  rw [wp_bind]
  refine wp_mono plannerClient_spec ?_ fun _ _ _ => trivial
  rintro client _ ⟨rfl, -⟩
  rw [wp_bind, wp_onPortfolio]
  refine wp_mono (hsubmit client _) ?_ fun _ _ _ => trivial
  intro flowId t hcurrent
  unfold Wp
  cases next flowId _
  · exact hcurrent
  · trivial

end Calls

theorem current_of_accepted (h : FlowsKept w.portfolio) {syncState : PortfolioSyncState}
    (haccepted : AcceptedAt w a syncState) : CurrentAt w.portfolio syncState := by
  obtain ⟨hsync, flowId, c, hok⟩ := haccepted
  suffices hcurrent : Wp (perform a) (fun _ _ => CurrentAt w.portfolio syncState)
      (fun _ _ => True) w.contract by
    unfold Wp at hcurrent
    rw [hok] at hcurrent
    exact hcurrent
  cases a with
  | observationsVerified turn outcome =>
    unfold perform observationsVerified
    rw [wp_map, wp_bind, wp_get]
    cases hturn : w.contract.turns.lookup turn with
    | none => trivial
    | some next =>
      cases next with
      | setTargetAllocation client params =>
        simp only [syncStateOf, hturn] at hsync
        cases hsync
        simp only [dropTurn, wp_bind, wp_modify]
        apply wp_ite
        · intro _
          simp only [wp_bind, wp_onPortfolio]
          refine ofExcept_spec (fun verified _ => ?_) fun _ _ => trivial
          exact continueSetTargetAllocation_current params _ _
        · intro _
          rw [wp_onPortfolio]
          exact continueSetTargetAllocation_current params _ _
      | _ => trivial
  | rebalance client params =>
    cases hsync
    unfold perform
    rw [wp_map, wp_onPortfolio]
    exact submitRebalance_current params _
  | claimRewards client params =>
    cases hsync
    unfold perform
    rw [wp_map, wp_onPortfolio]
    exact submitClaimRewards_current params _
  | resolvePlan flowId plan version count observations =>
    cases hsync
    unfold perform
    rw [wp_map, wp_onPortfolio]
    exact resolvePlan_current h
  | rejectPlan flowId reason version count =>
    cases hsync
    unfold perform
    rw [wp_map, wp_onPortfolio]
    exact rejectPlan_current _
  | plannerRebalance params plan =>
    cases hsync
    unfold perform plannerRebalance
    rw [wp_map]
    exact planner_current (fun _ => submitRebalance_current params) _
  | plannerClaimRewards params plan =>
    cases hsync
    unfold perform plannerClaimRewards
    rw [wp_map]
    exact planner_current (fun _ => submitClaimRewards_current params) _
  | _ => cases hsync

theorem later_of_planner (h : FlowsKept w.portfolio) (ha : IsPlanner a) (hok : Succeeds w a) :
    Later w.portfolio (w.step a).portfolio := by
  obtain ⟨flowId, c, hok⟩ := hok
  have hstep : (w.step a).portfolio = c.portfolio := by
    unfold PortfolioWorld.portfolio PortfolioWorld.step finalState
    rw [hok]
  rw [hstep]
  suffices hlater : Wp (perform a) (fun _ c' => Later w.portfolio c'.portfolio)
      (fun _ _ => True) w.contract by
    unfold Wp at hlater
    rw [hok] at hlater
    exact hlater
  cases a with
  | resolvePlan flowId plan version count observations =>
    unfold perform
    rw [wp_map, wp_onPortfolio]
    exact wp_mono (resolvePlan_spec (h.pending flowId)) (fun _ _ h => h.1) fun _ _ _ => trivial
  | rejectPlan flowId reason version count =>
    unfold perform
    rw [wp_map, wp_onPortfolio]
    exact wp_mono rejectPlan_spec (fun _ _ h => h.1) fun _ _ _ => trivial
  | plannerRebalance params plan =>
    unfold perform plannerRebalance
    rw [wp_map]
    refine wp_mono (planner_delegates (a := .plannerRebalance params plan)
      (nofun : Permission.rebalance ≠ .allocation) rfl
      fun client => submitRebalance_spec h.fresh) (fun _ _ h => h.1) fun _ _ _ => trivial
  | plannerClaimRewards params plan =>
    unfold perform plannerClaimRewards
    rw [wp_map]
    refine wp_mono (planner_delegates (a := .plannerClaimRewards params plan)
      (nofun : Permission.claimRewards ≠ .allocation) rfl
      fun client => submitClaimRewards_spec h.fresh) (fun _ _ h => h.1) fun _ _ _ => trivial
  | _ => cases ha

theorem answered_step (h : FlowsKept w.portfolio) (ha : IsAnswer a) :
    (w.step a).portfolio = w.portfolio ∨ Later w.portfolio (w.step a).portfolio := by
  apply finalState_of_wp (P := fun c : Contract δ =>
    c.portfolio = w.portfolio ∨ Later w.portfolio c.portfolio)
  cases a with
  | resolvePlan flowId plan version count observations =>
    unfold perform
    rw [wp_map, wp_onPortfolio]
    refine wp_mono (resolvePlan_spec (h.pending flowId)) (fun _ _ h => .inr h.1) ?_
    rintro _ t (rfl | h)
    · exact .inl rfl
    · exact .inr h.1
  | rejectPlan flowId reason version count =>
    unfold perform
    rw [wp_map, wp_onPortfolio]
    exact wp_mono rejectPlan_spec (fun _ _ h => .inr h.1) fun _ _ h => .inl h
  | _ => cases ha

theorem later_of_uses (h : FlowsKept w.portfolio) (hok : Succeeds w a)
    (huses : IsPlanner a ∨ ¬ SameSettings w.portfolio (w.step a).portfolio) :
    Later w.portfolio (w.step a).portfolio := by
  rcases huses with ha | hchanged
  · exact later_of_planner h ha hok
  · exact .inl (changed_step h hchanged)

theorem not_accepted_again (h : FlowsKept w.portfolio) {syncState : PortfolioSyncState}
    (actions : List (Action δ)) (b : Action δ) (haccepted : AcceptedAt w a syncState)
    (huses : IsPlanner a ∨ ¬ SameSettings w.portfolio (w.step a).portfolio) :
    ¬ AcceptedAt ((w.step a).run actions) b syncState := by
  intro hagain
  have hbefore := current_of_accepted h haccepted
  have hafter := current_of_accepted (flowsKept_run (h.step a) actions) hagain
  have hlater := later_of_uses h haccepted.2 huses
  have hrun := notBefore_run (h.step a) actions
  unfold CurrentAt at hbefore hafter
  unfold Later at hlater
  unfold NotBefore at hrun
  omega

end SyncStates

section RefusedSubmission

theorem reachable_run (actions : List (Action δ)) (portfolioId : Nat)
    (sourceAccountId : Option String) :
    (portfolioSystem δ).Reachable TransitionSystem.anyStep
      ((PortfolioWorld.open portfolioId sourceAccountId).run actions) := by
  suffices h : ∀ w, (portfolioSystem δ).Reachable TransitionSystem.anyStep w →
      (portfolioSystem δ).Reachable TransitionSystem.anyStep (w.run actions) from
    h _ (.init ⟨portfolioId, sourceAccountId, rfl⟩)
  intro w hw
  induction actions generalizing w with
  | nil => exact hw
  | cons a actions ih => exact ih (w.step a) (hw.step trivial rfl)

/-- The agent may give at most half to a position, but asks for all. -/
def overweight : Action Unit :=
  .setTargetAllocation { agentId := 1 } {
    syncState := { policyVersion := 2, rebalanceCount := 0 }
    targetAllocation := fromEntries [("USDN", 50)] }

def beforeRefusal : PortfolioWorld Unit :=
  (PortfolioWorld.open 0 (some "eip155:1:0xabc")).run [
    .owner (.evmRebalance (some [("USDN", 100)])),
    .resolvePlan 1 { flow := [], order := none } 1 0 none,
    .finishFlow 1,
    .grant "agoric1agent" {
      allocation := some (.limits {
        maxWeightBps := some 5000, minVaultTvlUsd := none, maxVaultShareBps := none })
      rebalance := none
      claimRewards := none },
    .resume 0,
    .settleDelivery 1 none,
    overweight]

end RefusedSubmission

end AgoricSdk.Portfolio
