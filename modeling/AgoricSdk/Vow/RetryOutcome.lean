import AgoricSdk.Lib.InFlight
import AgoricSdk.Vow.Retryable

/-!
Each flow has one outcome. Every run that was started is called, watched or reported, once,
and the flow is done when the latest run reports a result that is not retried.
-/

namespace AgoricSdk.Vow

open InFlight StateProgram TransitionSystem

variable {ν κ : Type} {w t : RetryWorld ν κ} {f : ℕ} {s : RetryableFlow ν κ}

section Runs

theorem getFlow_run (h : w.flows[f]? = some s) : getFlow f w = .ok s w := by
  unfold getFlow
  rw [bind_run get_run, h]
  rfl

/-- The next run of the flow is being called. -/
def RetryWorld.restarted (w : RetryWorld ν κ) (f : ℕ) (s : RetryableFlow ν κ) : RetryWorld ν κ :=
  { w with
    flows := w.flows.set f { s with runs := s.runs + 1 }
    calling := (⟨f, s.runs + 1⟩, s.activationArgs) :: w.calling }

theorem restart_run (h : w.flows[f]? = some s) (hopen : s.isDone = false) :
    restart f w = .ok ⟨⟩ (w.restarted f s) := by
  unfold restart RetryWorld.restarted
  rw [bind_run (getFlow_run h), hopen]
  rfl

theorem restart_done (h : w.flows[f]? = some s) (hdone : s.isDone = true) :
    restart f w = .error (.cannotRestart f) w := by
  unfold restart
  rw [bind_run (getFlow_run h), hdone]
  rfl

theorem stepStatus_run {vow : ℕ} {step : VowInternals ν} (h : w.vows[vow]? = some step) :
    stepStatus vow w = .ok step.stepStatus w := by
  unfold stepStatus
  rw [bind_run get_run, h]
  rfl

theorem settleStep_run (isStorable : ν → Bool) (vow : ℕ) (status : StepStatus) (value : ν)
    (result : Result ν) (w : RetryWorld ν κ) :
    settleStep isStorable vow status value result w = .ok ⟨⟩ { w with
      vows := w.vows.set vow (settledStep isStorable status value)
      resolverToNonStoredValue := if isStorable value then w.resolverToNonStoredValue
        else w.resolverToNonStoredValue.insert vow value
      settlements := w.settlements ++ [(vow, result)] } := by
  unfold settleStep
  cases h : isStorable value <;> rfl

theorem resolve_run {vow : ℕ} (h : w.vows[vow]? = some {}) (value : ν) :
    resolve vow value w = .ok ⟨⟩ { w with
      vows := w.vows.set vow { stepStatus := some .pending }
      nextSteps := w.nextSteps ++ [(vow, value)] } := by
  unfold resolve
  rw [bind_run (stepStatus_run h)]
  rfl

theorem reject_run {vow : ℕ} (h : w.vows[vow]? = some {}) (isStorable : ν → Bool) (reason : ν) :
    reject isStorable vow reason w = .ok ⟨⟩ { w with
      vows := w.vows.set vow (settledStep isStorable .rejected reason)
      resolverToNonStoredValue := if isStorable reason then w.resolverToNonStoredValue
        else w.resolverToNonStoredValue.insert vow reason
      settlements := w.settlements ++ [(vow, .rejected reason)] } := by
  unfold reject
  rw [bind_run (stepStatus_run h)]
  change watchNextStepOnRejected isStorable vow reason _ = _
  unfold watchNextStepOnRejected
  rw [settleStep_run]
  dsimp only
  rw [List.set_set]

theorem finish_run (h : w.flows[f]? = some s)
    (hfound : w.flowForOutcomeVowKey.has s.outcomeKit = true) :
    finish f w = .ok ⟨⟩ { w with
      flows := w.flows.set f { s with isDone := true }
      flowForOutcomeVowKey := w.flowForOutcomeVowKey.erase s.outcomeKit } := by
  unfold finish deleteFlow
  rw [bind_run (getFlow_run h), bind_assoc, bind_run get_run, hfound]
  rfl

end Runs

section Invariant

/-- The runs that have been started, wherever their results are. -/
def RetryWorld.allRuns (w : RetryWorld ν κ) : List Run :=
  w.calling.map Prod.fst ++ (w.watched.map Prod.fst ++ w.reports.map Prod.fst)

def RetryWorld.runsOf (w : RetryWorld ν κ) (f : ℕ) : ℕ :=
  ((w.flows[f]?).map RetryableFlow.runs).getD 0

structure RunsInv (w : RetryWorld ν κ) : Prop where
  nodup : w.allRuns.Nodup
  mem : ∀ run, run ∈ w.allRuns ↔ 0 < run.runId ∧ run.runId ≤ w.runsOf run.flow

/-- What is known of an outcome vow: its step, its value if that is on its way, and how often
it has settled. -/
abbrev RetryWorld.outcome (w : RetryWorld ν κ) (f : ℕ) :
    Option (VowInternals ν) × List (ℕ × ν) × List (ℕ × Result ν) :=
  (w.vows[f]?, w.nextSteps.filter fun step => step.1 = f,
    w.settlements.filter fun settlement => settlement.1 = f)

def settledVow (isStorable : ν → Bool) : Result ν → VowInternals ν
  | .fulfilled value => settledStep isStorable .fulfilled value
  | .rejected reason => settledStep isStorable .rejected reason

/-- The vow has been given the result, and has settled unless its value is on the way. -/
def RetryWorld.HasOutcome (isStorable : ν → Bool) (w : RetryWorld ν κ) (f : ℕ)
    (result : Result ν) : Prop :=
  (∃ value, result = .fulfilled value ∧
    w.outcome f = (some { stepStatus := some .pending }, [(f, value)], [])) ∨
  w.outcome f = (some (settledVow isStorable result), [], [(f, result)])

structure FlowInv (isStorable : ν → Bool) (w : RetryWorld ν κ) (f : ℕ)
    (s : RetryableFlow ν κ) : Prop where
  kit : s.outcomeKit = f
  opened : s.isDone = false → w.outcome f = (some {}, [], [])
  done : s.isDone = true → ∃ result,
    (⟨f, s.runs⟩, result) ∈ w.reports ∧ w.HasOutcome isStorable f result

def RetryWorld.isOpen (w : RetryWorld ν κ) (f : ℕ) : Bool :=
  (w.flows[f]?).any fun s => !s.isDone

/-- The values that are kept in memory are values of vows that have settled. -/
def RetryWorld.Held (w : RetryWorld ν κ) : Prop :=
  ∀ k value, w.resolverToNonStoredValue.lookup k = some value →
    (k, .fulfilled value) ∈ w.settlements ∨ (k, .rejected value) ∈ w.settlements

structure RetryCore (isStorable : ν → Bool) (w : RetryWorld ν κ) : Prop where
  vows : w.vows.length = w.flows.length
  runs : RunsInv w
  found : ∀ k, w.flowForOutcomeVowKey.lookup k = if w.isOpen k then some k else none
  flows : ∀ f s, w.flows[f]? = some s → FlowInv isStorable w f s
  fresh : ∀ k, w.flows.length ≤ k → w.outcome k = (none, [], [])
  failures : ∀ failure ∈ w.failures, ∃ f, failure = .cannotRestart f
  held : w.Held

/-- The latest run of a flow that is not done has not reported. -/
def RetryWorld.Current (w : RetryWorld ν κ) (f : ℕ) : Prop :=
  ∀ s, w.flows[f]? = some s → s.isDone = false → (⟨f, s.runs⟩ : Run) ∉ w.reports.map Prod.fst

def RetryWorld.Started (w : RetryWorld ν κ) : Prop :=
  ∀ (f : ℕ) (s : RetryableFlow ν κ), w.flows[f]? = some s → 0 < s.runs

structure RetryInv (isStorable : ν → Bool) (w : RetryWorld ν κ) : Prop where
  core : RetryCore isStorable w
  current : ∀ f, w.Current f
  started : w.Started

variable {isStorable : ν → Bool}

theorem RunsInv.move (h : RunsInv w) (hperm : t.allRuns.Perm w.allRuns)
    (hruns : ∀ g, t.runsOf g = w.runsOf g) : RunsInv t where
  nodup := hperm.nodup_iff.mpr h.nodup
  mem run := by
    rw [hperm.mem_iff, hruns]
    exact h.mem run

theorem RunsInv.start (h : RunsInv w) (hperm : t.allRuns.Perm (⟨f, w.runsOf f + 1⟩ :: w.allRuns))
    (hself : t.runsOf f = w.runsOf f + 1) (hother : ∀ g, g ≠ f → t.runsOf g = w.runsOf g) :
    RunsInv t where
  nodup := by
    apply hperm.nodup_iff.mpr
    apply List.nodup_cons.mpr
    refine ⟨fun hmem => ?_, h.nodup⟩
    have hle := ((h.mem _).mp hmem).2
    dsimp only at hle
    omega
  mem run := by
    rw [hperm.mem_iff, List.mem_cons, h.mem]
    obtain ⟨g, r⟩ := run
    dsimp only
    by_cases hg : g = f
    · rw [hg, hself, Run.mk.injEq]
      omega
    · rw [hother g hg, Run.mk.injEq]
      tauto

theorem runsOf_eq (h : w.flows[f]? = some s) : w.runsOf f = s.runs := by
  unfold RetryWorld.runsOf
  rw [h]
  rfl

theorem isOpen_eq (h : w.flows[f]? = some s) : w.isOpen f = !s.isDone := by
  unfold RetryWorld.isOpen
  rw [h]
  rfl

theorem FlowInv.mono (h : FlowInv isStorable w f s) (houtcome : t.outcome f = w.outcome f)
    (hreports : ∀ report ∈ w.reports, report ∈ t.reports) : FlowInv isStorable t f s where
  kit := h.kit
  opened hopen := houtcome.trans (h.opened hopen)
  done hdone := by
    obtain ⟨result, hmem, hhas⟩ := h.done hdone
    refine ⟨result, hreports _ hmem, ?_⟩
    unfold RetryWorld.HasOutcome at hhas ⊢
    rw [houtcome]
    exact hhas

theorem getFlow_set {g : ℕ} {s' : RetryableFlow ν κ} (h : g ≠ f) :
    (w.flows.set f s')[g]? = w.flows[g]? := List.getElem?_set_ne h.symm

end Invariant

section Operations

variable {isStorable : ν → Bool}

theorem RetryCore.update (h : RetryCore isStorable w) {s' : RetryableFlow ν κ}
    (hf : w.flows[f]? = some s) (hflows : t.flows = w.flows.set f s')
    (hvows : t.vows.length = w.vows.length) (hruns : RunsInv t)
    (hfound : ∀ k, t.flowForOutcomeVowKey.lookup k = if t.isOpen k then some k else none)
    (hself : FlowInv isStorable t f s') (houtcome : ∀ g, g ≠ f → t.outcome g = w.outcome g)
    (hreports : ∀ report ∈ w.reports, report ∈ t.reports) (hfailures : t.failures = w.failures)
    (hheld : t.Held) :
    RetryCore isStorable t where
  vows := by
    rw [hvows, hflows, List.length_set]
    exact h.vows
  runs := hruns
  found := hfound
  flows g s'' hg := by
    rw [hflows] at hg
    by_cases heq : g = f
    · rw [heq] at hg ⊢
      rw [List.getElem?_set_self (List.getElem?_eq_some_iff.mp hf).1] at hg
      cases hg
      exact hself
    · rw [getFlow_set heq] at hg
      exact (h.flows g s'' hg).mono (houtcome g heq) hreports
  fresh k hk := by
    rw [hflows, List.length_set] at hk
    have hlt : f < w.flows.length := (List.getElem?_eq_some_iff.mp hf).1
    rw [houtcome k (by omega)]
    exact h.fresh k hk
  failures := by
    rw [hfailures]
    exact h.failures
  held := hheld

theorem RetryCore.restarted (h : RetryCore isStorable w) (hf : w.flows[f]? = some s)
    (hopen : s.isDone = false) : RetryCore isStorable (w.restarted f s) := by
  have hlt : f < w.flows.length := (List.getElem?_eq_some_iff.mp hf).1
  have hself : (w.restarted f s).flows[f]? = some { s with runs := s.runs + 1 } :=
    List.getElem?_set_self hlt
  have hother : ∀ g, g ≠ f → (w.restarted f s).flows[g]? = w.flows[g]? := fun _ => getFlow_set
  apply h.update (t := w.restarted f s) hf rfl rfl
  · apply h.runs.start (f := f)
    · rw [runsOf_eq hf]
      exact .refl _
    · rw [runsOf_eq hself, runsOf_eq hf]
    · intro g hg
      unfold RetryWorld.runsOf
      rw [hother g hg]
  · intro k
    by_cases hk : k = f
    · have hfound := h.found f
      rw [isOpen_eq hf] at hfound
      rw [hk, isOpen_eq hself]
      exact hfound
    · unfold RetryWorld.isOpen
      rw [hother k hk]
      exact h.found k
  · have hflow := h.flows f s hf
    exact
      { kit := hflow.kit
        opened := fun _ => hflow.opened hopen
        done := fun hdone => nomatch hopen.symm.trans hdone }
  · exact fun _ _ => rfl
  · exact fun _ hmem => hmem
  · rfl
  · exact h.held

theorem RetryCore.restarted_current (h : RetryCore isStorable w) (hf : w.flows[f]? = some s)
    (hcurrent : ∀ g, g ≠ f → w.Current g) (g : ℕ) : (w.restarted f s).Current g := by
  intro s' hs' hopen hmem
  by_cases hg : g = f
  · rw [hg] at hs' hmem
    have hlt : f < w.flows.length := (List.getElem?_eq_some_iff.mp hf).1
    have hself : (w.restarted f s).flows[f]? = some { s with runs := s.runs + 1 } :=
      List.getElem?_set_self hlt
    cases hself.symm.trans hs'
    -- A run that has reported has been started before.
    have hrun : (⟨f, s.runs + 1⟩ : Run) ∈ w.allRuns :=
      List.mem_append_right _ (List.mem_append_right _ hmem)
    have hle := ((h.runs.mem _).mp hrun).2
    rw [runsOf_eq hf] at hle
    dsimp only at hle
    omega
  · have hsame : (w.restarted f s).flows[g]? = w.flows[g]? := getFlow_set hg
    exact hcurrent g hg s' (hsame.symm.trans hs') hopen hmem

theorem RetryCore.same (h : RetryCore isStorable w) (hflows : t.flows = w.flows)
    (hvows : t.vows.length = w.vows.length) (hruns : t.allRuns.Perm w.allRuns)
    (hfound : t.flowForOutcomeVowKey = w.flowForOutcomeVowKey)
    (hflow : ∀ f s, w.flows[f]? = some s → FlowInv isStorable t f s)
    (hfresh : ∀ k, w.flows.length ≤ k → t.outcome k = w.outcome k)
    (hfailures : ∀ failure ∈ t.failures, failure ∈ w.failures ∨ ∃ f, failure = .cannotRestart f)
    (hheld : t.Held) :
    RetryCore isStorable t where
  vows := by
    rw [hvows, hflows]
    exact h.vows
  runs := by
    apply h.runs.move hruns
    intro g
    unfold RetryWorld.runsOf
    rw [hflows]
  found k := by
    unfold RetryWorld.isOpen
    rw [hfound, hflows]
    exact h.found k
  flows f s hf := by
    rw [hflows] at hf
    exact hflow f s hf
  fresh k hk := by
    rw [hflows] at hk
    exact (hfresh k hk).trans (h.fresh k hk)
  failures failure hmem := by
    rcases hfailures failure hmem with hmem | hrestart
    · exact h.failures failure hmem
    · exact hrestart
  held := hheld

/-- The result is taken from those that are watched, and is reported. -/
def RetryWorld.taken (w : RetryWorld ν κ) (i : ℕ) (run : Run) (result : Result ν) :
    RetryWorld ν κ :=
  { w with watched := w.watched.eraseIdx i, reports := w.reports ++ [(run, result)] }

theorem RetryCore.taken (h : RetryCore isStorable w) {i : ℕ} {run : Run} {result : Result ν}
    (hi : w.watched[i]? = some (run, some result)) :
    RetryCore isStorable (w.taken i run result) := by
  apply h.same (t := w.taken i run result) rfl rfl
  · have hperm := (perm_eraseIdx hi).map Prod.fst
    apply List.perm_iff_count.mpr
    intro a
    have hcount := List.perm_iff_count.mp hperm a
    unfold RetryWorld.allRuns RetryWorld.taken
    simp only [List.map_append, List.map_cons, List.map_nil, List.count_append,
      List.count_cons, List.count_nil] at hcount ⊢
    omega
  · rfl
  · exact fun g s hg => (h.flows g s hg).mono rfl fun _ hmem => List.mem_append_left _ hmem
  · exact fun _ _ => rfl
  · exact fun _ hmem => .inl hmem
  · exact h.held

theorem RetryCore.finished (h : RetryCore isStorable w) (hf : w.flows[f]? = some s)
    {result : Result ν} (hreport : (⟨f, s.runs⟩, result) ∈ w.reports)
    (hflows : t.flows = w.flows.set f { s with isDone := true })
    (hvows : t.vows.length = w.vows.length) (hruns : t.allRuns = w.allRuns)
    (hfound : t.flowForOutcomeVowKey = w.flowForOutcomeVowKey.erase f)
    (hself : t.HasOutcome isStorable f result)
    (houtcome : ∀ g, g ≠ f → t.outcome g = w.outcome g) (hreports : t.reports = w.reports)
    (hfailures : t.failures = w.failures)
    (hheld : t.Held) :
    RetryCore isStorable t := by
  have hlt : f < w.flows.length := (List.getElem?_eq_some_iff.mp hf).1
  have hdone : t.flows[f]? = some { s with isDone := true } := by
    rw [hflows]
    exact List.getElem?_set_self hlt
  apply h.update hf hflows hvows
  · apply h.runs.move
    · rw [hruns]
    · intro g
      by_cases hg : g = f
      · rw [hg, runsOf_eq hdone, runsOf_eq hf]
      · unfold RetryWorld.runsOf
        rw [hflows, getFlow_set hg]
  · intro k
    rw [hfound, Table.lookup_erase]
    by_cases hk : k = f
    · rw [hk, isOpen_eq hdone, if_pos rfl]
      rfl
    · rw [if_neg hk, h.found k]
      unfold RetryWorld.isOpen
      rw [hflows, getFlow_set hk]
  · have hflow := h.flows f s hf
    constructor
    · exact hflow.kit
    · exact fun hopen => nomatch hopen
    · refine fun _ => ⟨result, ?_, hself⟩
      rw [hreports]
      exact hreport
  · exact houtcome
  · intro report hmem
    rw [hreports]
    exact hmem
  · exact hfailures
  · exact hheld

end Operations

section Watcher

variable {isStorable : ν → Bool} {isRetryableReason : ν → Option κ → Option κ}

/-- The outcome vow has been resolved, and settles when its next step is known. -/
def RetryWorld.fulfilled (w : RetryWorld ν κ) (f : ℕ) (s : RetryableFlow ν κ) (value : ν) :
    RetryWorld ν κ :=
  { w with
    flows := w.flows.set f { s with isDone := true }
    vows := w.vows.set f { stepStatus := some .pending }
    flowForOutcomeVowKey := w.flowForOutcomeVowKey.erase f
    nextSteps := w.nextSteps ++ [(f, value)] }

def RetryWorld.settled (isStorable : ν → Bool) (w : RetryWorld ν κ) (vow : ℕ)
    (status : StepStatus) (value : ν) (result : Result ν) : RetryWorld ν κ :=
  { w with
    vows := w.vows.set vow (settledStep isStorable status value)
    resolverToNonStoredValue := if isStorable value then w.resolverToNonStoredValue
      else w.resolverToNonStoredValue.insert vow value
    settlements := w.settlements ++ [(vow, result)] }

def RetryWorld.rejected (isStorable : ν → Bool) (w : RetryWorld ν κ) (f : ℕ)
    (s : RetryableFlow ν κ) (reason : ν) : RetryWorld ν κ :=
  { w.settled isStorable f .rejected reason (.rejected reason) with
    flows := w.flows.set f { s with isDone := true }
    flowForOutcomeVowKey := w.flowForOutcomeVowKey.erase f }

def RetryWorld.retrying (w : RetryWorld ν κ) (f : ℕ) (s : RetryableFlow ν κ) (retryReason : κ) :
    RetryWorld ν κ :=
  { w with flows := w.flows.set f { s with lastRetryReason := some retryReason } }

variable {run : Run}

theorem onFulfilled_stale (hf : w.flows[run.flow]? = some s) (hstale : run.runId ≠ s.runs)
    (value : ν) : onFulfilled value run w = .ok ⟨⟩ w := by
  unfold onFulfilled
  rw [bind_run (getFlow_run hf)]
  dsimp only
  rw [if_neg hstale]
  rfl

theorem onRejected_stale (hf : w.flows[run.flow]? = some s) (hstale : run.runId ≠ s.runs)
    (reason : ν) : onRejected isStorable isRetryableReason reason run w = .ok ⟨⟩ w := by
  unfold onRejected
  rw [bind_run (getFlow_run hf)]
  dsimp only
  rw [if_neg hstale]
  rfl

theorem RetryCore.open_kit (h : RetryCore isStorable w) (hf : w.flows[f]? = some s)
    (hopen : s.isDone = false) :
    s.outcomeKit = f ∧ w.vows[f]? = some {} ∧ w.flowForOutcomeVowKey.has f = true := by
  have hflow := h.flows f s hf
  have hvow := congrArg Prod.fst (hflow.opened hopen)
  have hfound := h.found f
  rw [isOpen_eq hf, hopen] at hfound
  exact ⟨hflow.kit, hvow, Table.has_of_lookup hfound⟩

theorem onFulfilled_run (h : RetryCore isStorable w) (hf : w.flows[run.flow]? = some s)
    (hopen : s.isDone = false) (hlatest : run.runId = s.runs) (value : ν) :
    onFulfilled value run w = .ok ⟨⟩ (w.fulfilled run.flow s value) := by
  obtain ⟨hkit, hvow, hhas⟩ := h.open_kit hf hopen
  unfold onFulfilled
  rw [bind_run (getFlow_run hf)]
  dsimp only
  rw [if_pos hlatest, hopen, hkit]
  change (do resolve run.flow value; finish run.flow : Retry ν κ Unit) w = _
  rw [bind_run (resolve_run hvow value)]
  have hfinish := finish_run (w := { w with
    vows := w.vows.set run.flow { stepStatus := some .pending }
    nextSteps := w.nextSteps ++ [(run.flow, value)] }) hf (by rw [hkit]; exact hhas)
  unfold RetryWorld.fulfilled
  rw [hfinish, hkit]

theorem onRejected_run (h : RetryCore isStorable w) (hf : w.flows[run.flow]? = some s)
    (hopen : s.isDone = false) (hlatest : run.runId = s.runs) {reason : ν}
    (hreason : isRetryableReason reason s.lastRetryReason = none) :
    onRejected isStorable isRetryableReason reason run w =
      .ok ⟨⟩ (w.rejected isStorable run.flow s reason) := by
  obtain ⟨hkit, hvow, hhas⟩ := h.open_kit hf hopen
  unfold onRejected
  rw [bind_run (getFlow_run hf)]
  dsimp only
  rw [if_pos hlatest, hopen, hreason, hkit]
  change (do reject isStorable run.flow reason; finish run.flow : Retry ν κ Unit) w = _
  rw [bind_run (reject_run hvow isStorable reason)]
  have hfinish := finish_run
    (w := w.settled isStorable run.flow .rejected reason (.rejected reason)) hf
    (by rw [hkit]; exact hhas)
  refine hfinish.trans ?_
  unfold RetryWorld.rejected
  rw [hkit]
  rfl

theorem onRejected_retry (hf : w.flows[run.flow]? = some s) (hopen : s.isDone = false)
    (hlatest : run.runId = s.runs) {reason : ν} {retryReason : κ}
    (hreason : isRetryableReason reason s.lastRetryReason = some retryReason) :
    onRejected isStorable isRetryableReason reason run w =
      .ok ⟨⟩ ((w.retrying run.flow s retryReason).restarted run.flow
        { s with lastRetryReason := some retryReason }) := by
  have hlt : run.flow < w.flows.length := (List.getElem?_eq_some_iff.mp hf).1
  have hself : (w.retrying run.flow s retryReason).flows[run.flow]? =
      some { s with lastRetryReason := some retryReason } := List.getElem?_set_self hlt
  have hrestart := restart_run hself hopen
  rw [← hrestart]
  unfold onRejected
  rw [bind_run (getFlow_run hf)]
  dsimp only
  rw [if_pos hlatest, hreason, if_neg (Bool.eq_false_iff.mp hopen)]
  rfl

theorem RetryCore.retrying (h : RetryCore isStorable w) (hf : w.flows[f]? = some s)
    (hopen : s.isDone = false) (retryReason : κ) :
    RetryCore isStorable (w.retrying f s retryReason) := by
  have hlt : f < w.flows.length := (List.getElem?_eq_some_iff.mp hf).1
  have hself : (w.retrying f s retryReason).flows[f]? =
      some { s with lastRetryReason := some retryReason } := List.getElem?_set_self hlt
  have hother : ∀ g, g ≠ f → (w.retrying f s retryReason).flows[g]? = w.flows[g]? :=
    fun _ => getFlow_set
  apply h.update (t := w.retrying f s retryReason) hf rfl rfl
  · apply h.runs.move
    · exact .refl _
    · intro g
      by_cases hg : g = f
      · rw [hg, runsOf_eq hself, runsOf_eq hf]
      · unfold RetryWorld.runsOf
        rw [hother g hg]
  · intro k
    by_cases hk : k = f
    · have hfound := h.found f
      rw [isOpen_eq hf] at hfound
      rw [hk, isOpen_eq hself]
      exact hfound
    · unfold RetryWorld.isOpen
      rw [hother k hk]
      exact h.found k
  · have hflow := h.flows f s hf
    exact
      { kit := hflow.kit
        opened := fun _ => hflow.opened hopen
        done := fun hdone => nomatch hopen.symm.trans hdone }
  · exact fun _ _ => rfl
  · exact fun _ hmem => hmem
  · rfl
  · exact h.held

end Watcher

section Steps

variable {isStorable : ν → Bool} {isRetryableReason : ν → Option κ → Option κ}

theorem RetryCore.fulfilled (h : RetryCore isStorable w) (hf : w.flows[f]? = some s)
    (hopen : s.isDone = false) {value : ν} (hreport : (⟨f, s.runs⟩, .fulfilled value) ∈ w.reports) :
    RetryCore isStorable (w.fulfilled f s value) := by
  obtain ⟨-, hvow, -⟩ := h.open_kit hf hopen
  have houtcome := (h.flows f s hf).opened hopen
  apply h.finished (t := w.fulfilled f s value) hf hreport rfl
  · exact List.length_set
  · rfl
  · rfl
  · refine .inl ⟨value, rfl, ?_⟩
    unfold RetryWorld.outcome RetryWorld.fulfilled at *
    simp only [Prod.mk.injEq] at houtcome
    obtain ⟨-, hnext, hsettlements⟩ := houtcome
    dsimp only
    rw [List.getElem?_set_self (List.getElem?_eq_some_iff.mp hvow).1, filter_append_self, hnext,
      hsettlements]
    rfl
  · intro g hg
    unfold RetryWorld.outcome RetryWorld.fulfilled
    dsimp only
    rw [List.getElem?_set_ne hg.symm, filter_append_other hg]
  · rfl
  · rfl
  · exact h.held

theorem held_settled (h : w.Held) (status : StepStatus) {value : ν}
    {result : Result ν} (hresult : result = .fulfilled value ∨ result = .rejected value) (k : ℕ)
    (value' : ν)
    (hlookup : (w.settled isStorable f status value result).resolverToNonStoredValue.lookup k =
      some value') :
    (k, .fulfilled value') ∈ (w.settled isStorable f status value result).settlements ∨
      (k, .rejected value') ∈ (w.settled isStorable f status value result).settlements := by
  have hold : w.resolverToNonStoredValue.lookup k = some value' →
      (k, .fulfilled value') ∈ (w.settled isStorable f status value result).settlements ∨
        (k, .rejected value') ∈ (w.settled isStorable f status value result).settlements := by
    intro hlookup
    rcases h k value' hlookup with hmem | hmem
    · exact .inl (List.mem_append_left _ hmem)
    · exact .inr (List.mem_append_left _ hmem)
  unfold RetryWorld.settled at hlookup
  dsimp only at hlookup
  by_cases hstorable : isStorable value = true
  · rw [if_pos hstorable] at hlookup
    exact hold hlookup
  · rw [if_neg hstorable, Table.lookup_insert] at hlookup
    by_cases hk : k = f
    · rw [if_pos hk] at hlookup
      cases hlookup
      have hlast : (k, result) ∈ (w.settled isStorable f status value result).settlements := by
        rw [hk]
        exact List.mem_append_right _ (List.mem_singleton_self _)
      rcases hresult with heq | heq
      · rw [heq] at hlast ⊢
        exact .inl hlast
      · rw [heq] at hlast ⊢
        exact .inr hlast
    · rw [if_neg hk] at hlookup
      exact hold hlookup

theorem outcome_settled_other {status : StepStatus} {value : ν} {result : Result ν} {g : ℕ}
    (hg : g ≠ f) : (w.settled isStorable f status value result).outcome g = w.outcome g := by
  unfold RetryWorld.outcome RetryWorld.settled
  dsimp only
  rw [List.getElem?_set_ne hg.symm, filter_append_other hg]

theorem RetryCore.rejected (h : RetryCore isStorable w) (hf : w.flows[f]? = some s)
    (hopen : s.isDone = false) {reason : ν}
    (hreport : (⟨f, s.runs⟩, .rejected reason) ∈ w.reports) :
    RetryCore isStorable (w.rejected isStorable f s reason) := by
  obtain ⟨-, hvow, -⟩ := h.open_kit hf hopen
  have houtcome := (h.flows f s hf).opened hopen
  apply h.finished (t := w.rejected isStorable f s reason) hf hreport rfl
  · exact List.length_set
  · rfl
  · rfl
  · right
    unfold RetryWorld.outcome RetryWorld.rejected RetryWorld.settled at *
    simp only [Prod.mk.injEq] at houtcome
    obtain ⟨-, hnext, hsettlements⟩ := houtcome
    dsimp only
    rw [List.getElem?_set_self (List.getElem?_eq_some_iff.mp hvow).1, filter_append_self, hnext,
      hsettlements]
    rfl
  · exact fun g hg => outcome_settled_other hg
  · rfl
  · rfl
  · exact held_settled h.held .rejected (.inr rfl)

theorem RetryInv.watching (h : RetryInv isStorable w) {i : ℕ} {run : Run}
    {result : Option (Result ν)} (hi : w.watched[i]? = some (run, result)) :
    ∃ s, w.flows[run.flow]? = some s ∧ (run.runId = s.runs → s.isDone = false) := by
  have hwatched : run ∈ w.watched.map Prod.fst :=
    List.mem_map_of_mem (List.mem_of_getElem? hi)
  have hstarted := (h.core.runs.mem run).mp
    (List.mem_append_right _ (List.mem_append_left _ hwatched))
  cases hf : w.flows[run.flow]? with
  | none =>
    unfold RetryWorld.runsOf at hstarted
    rw [hf] at hstarted
    exact absurd hstarted.2 (Nat.not_le.mpr hstarted.1)
  | some s =>
    refine ⟨s, rfl, fun hlatest => ?_⟩
    by_contra hdone
    obtain ⟨result, hreport, -⟩ := (h.core.flows _ s hf).done (Bool.not_eq_false _ ▸ hdone)
    rw [← hlatest] at hreport
    have hnodup := (List.nodup_append.mp h.core.runs.nodup).2.1
    exact (List.nodup_append.mp hnodup).2.2 run hwatched run (List.mem_map_of_mem hreport) rfl

/-- What the watcher does with the result of a run. -/
inductive Reported (isStorable : ν → Bool) (isRetryableReason : ν → Option κ → Option κ)
    (w : RetryWorld ν κ) (run : Run) : Result ν → RetryWorld ν κ → Prop where
  | stale {result : Result ν} {s : RetryableFlow ν κ} (hf : w.flows[run.flow]? = some s)
      (hstale : run.runId ≠ s.runs) : Reported isStorable isRetryableReason w run result w
  | fulfilled {value : ν} {s : RetryableFlow ν κ} (hf : w.flows[run.flow]? = some s)
      (hopen : s.isDone = false) (hlatest : run.runId = s.runs) :
      Reported isStorable isRetryableReason w run (.fulfilled value) (w.fulfilled run.flow s value)
  | rejected {reason : ν} {s : RetryableFlow ν κ} (hf : w.flows[run.flow]? = some s)
      (hopen : s.isDone = false) (hlatest : run.runId = s.runs)
      (hreason : isRetryableReason reason s.lastRetryReason = none) :
      Reported isStorable isRetryableReason w run (.rejected reason)
        (w.rejected isStorable run.flow s reason)
  | retried {reason : ν} {retryReason : κ} {s : RetryableFlow ν κ}
      (hf : w.flows[run.flow]? = some s) (hopen : s.isDone = false)
      (hlatest : run.runId = s.runs)
      (hreason : isRetryableReason reason s.lastRetryReason = some retryReason) :
      Reported isStorable isRetryableReason w run (.rejected reason)
        ((w.retrying run.flow s retryReason).restarted run.flow
          { s with lastRetryReason := some retryReason })

theorem RetryCore.reported (h : RetryCore isStorable w) {run : Run}
    (hf : w.flows[run.flow]? = some s) (hopen : run.runId = s.runs → s.isDone = false)
    (result : Result ν) :
    Reported isStorable isRetryableReason w run result
      (w.run (resultWatcher isStorable isRetryableReason run result)) := by
  unfold RetryWorld.run resultWatcher
  by_cases hlatest : run.runId = s.runs
  · cases result with
    | fulfilled value =>
      dsimp only
      rw [onFulfilled_run h hf (hopen hlatest) hlatest]
      exact .fulfilled hf (hopen hlatest) hlatest
    | rejected reason =>
      dsimp only
      cases hreason : isRetryableReason reason s.lastRetryReason with
      | none =>
        rw [onRejected_run h hf (hopen hlatest) hlatest hreason]
        exact .rejected hf (hopen hlatest) hlatest hreason
      | some retryReason =>
        rw [onRejected_retry hf (hopen hlatest) hlatest hreason]
        exact .retried hf (hopen hlatest) hlatest hreason
  · cases result with
    | fulfilled value =>
      dsimp only
      rw [onFulfilled_stale hf hlatest]
      exact .stale hf hlatest
    | rejected reason =>
      dsimp only
      rw [onRejected_stale hf hlatest]
      exact .stale hf hlatest

theorem Reported.core {run : Run} {result : Result ν}
    (hreported : Reported isStorable isRetryableReason w run result t)
    (h : RetryCore isStorable w) (hreport : (run, result) ∈ w.reports) :
    RetryCore isStorable t := by
  obtain ⟨f, runId⟩ := run
  cases hreported with
  | stale => exact h
  | fulfilled hf hopen hlatest =>
    cases hlatest
    exact h.fulfilled hf hopen hreport
  | rejected hf hopen hlatest =>
    cases hlatest
    exact h.rejected hf hopen hreport
  | retried hf hopen =>
    have hlt : f < w.flows.length := (List.getElem?_eq_some_iff.mp hf).1
    exact (h.retrying hf hopen _).restarted (List.getElem?_set_self hlt) hopen

theorem Reported.current {run : Run} {result : Result ν}
    (hreported : Reported isStorable isRetryableReason w run result t)
    (h : RetryCore isStorable w) (hother : ∀ g, g ≠ run.flow → w.Current g)
    (hstale : ∀ s, w.flows[run.flow]? = some s → run.runId ≠ s.runs → w.Current run.flow)
    (g : ℕ) : t.Current g := by
  obtain ⟨f, runId⟩ := run
  have hdone : ∀ {t : RetryWorld ν κ} {s : RetryableFlow ν κ}, w.flows[f]? = some s →
      t.flows = w.flows.set f { s with isDone := true } → t.reports = w.reports →
        t.Current g := by
    intro t s hf hflows hreports s' hs' hopen
    by_cases hg : g = f
    · rw [hflows, hg, List.getElem?_set_self (List.getElem?_eq_some_iff.mp hf).1] at hs'
      cases hs'
      cases hopen
    · rw [hflows, getFlow_set hg] at hs'
      rw [hreports]
      exact hother g hg s' hs' hopen
  cases hreported with
  | stale hf hne =>
    by_cases hg : g = f
    · rw [hg]
      exact hstale _ hf hne
    · exact hother g hg
  | fulfilled hf => exact hdone hf rfl rfl
  | rejected hf => exact hdone hf rfl rfl
  | retried hf hopen =>
    have hlt : f < w.flows.length := (List.getElem?_eq_some_iff.mp hf).1
    apply (h.retrying hf hopen _).restarted_current (List.getElem?_set_self hlt)
    intro k hk s' hs'
    exact hother k hk s' ((getFlow_set hk).symm.trans hs')

theorem started_set {s' : RetryableFlow ν κ}
    (h : ∀ (g : ℕ) (s : RetryableFlow ν κ), g ≠ f → w.flows[g]? = some s → 0 < s.runs)
    (hpos : 0 < s'.runs) (hflows : t.flows = w.flows.set f s') : t.Started := by
  intro g s hg
  rw [hflows] at hg
  by_cases heq : g = f
  · rw [heq, List.getElem?_set] at hg
    obtain ⟨-, hsame⟩ := Option.ite_none_right_eq_some.mp ((if_pos rfl).symm.trans hg)
    exact (Option.some_inj.mp hsame) ▸ hpos
  · rw [getFlow_set heq] at hg
    exact h g s heq hg

theorem Reported.started {run : Run} {result : Result ν}
    (hreported : Reported isStorable isRetryableReason w run result t)
    (h : w.Started) : t.Started := by
  cases hreported with
  | stale => exact h
  | fulfilled hf =>
    have hpos := h _ _ hf
    refine started_set (fun g s _ => h g s) ?_ rfl
    exact hpos
  | rejected hf =>
    have hpos := h _ _ hf
    refine started_set (fun g s _ => h g s) ?_ rfl
    exact hpos
  | retried hf =>
    refine started_set ?_ (Nat.succ_pos _) rfl
    intro g s hne hs
    exact h g s ((getFlow_set hne).symm.trans hs)

theorem RetryInv.reports (h : RetryInv isStorable w) {i : ℕ} {run : Run} {result : Result ν}
    (hi : w.watched[i]? = some (run, some result)) :
    Reported isStorable isRetryableReason (w.taken i run result) run result
        ((w.taken i run result).run (resultWatcher isStorable isRetryableReason run result)) ∧
      RetryInv isStorable
        ((w.taken i run result).run (resultWatcher isStorable isRetryableReason run result)) := by
  obtain ⟨s, hf, hopen⟩ := h.watching hi
  have hcore := h.core.taken hi
  have hreported : Reported isStorable isRetryableReason (w.taken i run result) run result
      ((w.taken i run result).run (resultWatcher isStorable isRetryableReason run result)) :=
    hcore.reported hf hopen result
  have hreport : (run, result) ∈ (w.taken i run result).reports :=
    List.mem_append_right _ (List.mem_singleton_self _)
  have htaken : ∀ g s', w.flows[g]? = some s' → (⟨g, s'.runs⟩ : Run) ≠ run →
      s'.isDone = false → (⟨g, s'.runs⟩ : Run) ∉ (w.taken i run result).reports.map Prod.fst := by
    intro g s' hs' hne hopen' hmem
    unfold RetryWorld.taken at hmem
    rw [List.map_append] at hmem
    rcases List.mem_append.mp hmem with hmem | hmem
    · exact h.current g s' hs' hopen' hmem
    · exact hne (List.mem_singleton.mp hmem)
  refine ⟨hreported, hreported.core hcore hreport, hreported.current hcore ?_ ?_,
    hreported.started h.started⟩
  · intro g hg s' hs'
    exact htaken g s' hs' fun heq => hg (congrArg Run.flow heq)
  · intro s'' hs'' hne s' hs'
    cases hs''.symm.trans hs'
    exact htaken run.flow s'' hs'' fun heq => hne (congrArg Run.runId heq).symm

theorem RetryInv.moved (h : RetryInv isStorable w)
    {calling : List (Run × List ν)} {watched : List (Run × Option (Result ν))}
    {table : Table ℕ ν}
    (hruns : (calling.map Prod.fst ++ watched.map Prod.fst).Perm
      (w.calling.map Prod.fst ++ w.watched.map Prod.fst))
    (htable : ∀ k value, table.lookup k = some value →
      w.resolverToNonStoredValue.lookup k = some value) :
    RetryInv isStorable { w with calling, watched, resolverToNonStoredValue := table } where
  core := by
    apply h.core.same (t := { w with calling, watched, resolverToNonStoredValue := table }) rfl rfl
    · have hmore := hruns.append_right (w.reports.map Prod.fst)
      rw [List.append_assoc, List.append_assoc] at hmore
      exact hmore
    · rfl
    · exact fun f s hf => (h.core.flows f s hf).mono rfl fun _ hmem => hmem
    · exact fun _ _ => rfl
    · exact fun _ hmem => .inl hmem
    · exact fun k value hlookup => h.core.held k value (htable k value hlookup)
  current := h.current
  started := h.started

theorem RetryCore.pending (h : RetryCore isStorable w) {vow : ℕ} {value : ν}
    (hmem : (vow, value) ∈ w.nextSteps) :
    ∃ s, w.flows[vow]? = some s ∧ s.isDone = true ∧
      (⟨vow, s.runs⟩, .fulfilled value) ∈ w.reports ∧
      w.outcome vow = (some { stepStatus := some .pending }, [(vow, value)], []) := by
  have hfilter : (vow, value) ∈ w.nextSteps.filter fun step => step.1 = vow :=
    List.mem_filter.mpr ⟨hmem, decide_eq_true rfl⟩
  have hsome : ∀ step settlements, w.outcome vow ≠ (step, [], settlements) := by
    intro step settlements houtcome
    simp only [Prod.mk.injEq] at houtcome
    rw [houtcome.2.1] at hfilter
    cases hfilter
  cases hf : w.flows[vow]? with
  | none => exact absurd (h.fresh vow (List.getElem?_eq_none_iff.mp hf)) (hsome _ _)
  | some s =>
    have hflow := h.flows vow s hf
    cases hdone : s.isDone with
    | false => exact absurd (hflow.opened hdone) (hsome _ _)
    | true =>
      obtain ⟨result, hreport, ⟨value', hresult, houtcome⟩ | houtcome⟩ := hflow.done hdone
      · have hnext := houtcome
        simp only [Prod.mk.injEq] at hnext
        rw [hnext.2.1] at hfilter
        cases List.mem_singleton.mp hfilter
        exact ⟨s, rfl, hdone, hresult ▸ hreport, houtcome⟩
      · exact absurd houtcome (hsome _ _)

/-- The value arrives, and the outcome vow settles. -/
def RetryWorld.arrived (isStorable : ν → Bool) (w : RetryWorld ν κ) (i vow : ℕ) (value : ν) :
    RetryWorld ν κ :=
  { w with nextSteps := w.nextSteps.eraseIdx i }.settled isStorable vow .fulfilled value
    (.fulfilled value)

theorem outcome_arrived_self {i vow : ℕ} {value : ν} (hi : w.nextSteps[i]? = some (vow, value))
    (h : w.outcome vow = (some { stepStatus := some .pending }, [(vow, value)], [])) :
    (w.arrived isStorable i vow value).outcome vow =
      (some (settledVow isStorable (.fulfilled value)), [], [(vow, .fulfilled value)]) := by
  simp only [Prod.mk.injEq] at h
  obtain ⟨hvow, hnext, hsettlements⟩ := h
  have hperm := (perm_eraseIdx hi).filter fun step => decide (step.1 = vow)
  rw [hnext] at hperm
  simp only [List.filter_cons, decide_true, if_true] at hperm
  have hnone := List.nil_perm.mp ((List.perm_cons _).mp hperm)
  unfold RetryWorld.outcome RetryWorld.arrived RetryWorld.settled
  dsimp only
  rw [List.getElem?_set_self (List.getElem?_eq_some_iff.mp hvow).1, filter_append_self, hnone,
    hsettlements]
  rfl

theorem outcome_arrived_other {i vow g : ℕ} {value : ν}
    (hi : w.nextSteps[i]? = some (vow, value)) (hg : g ≠ vow) :
    (w.arrived isStorable i vow value).outcome g = w.outcome g := by
  unfold RetryWorld.arrived
  rw [outcome_settled_other hg]
  unfold RetryWorld.outcome
  dsimp only
  rw [filter_eraseIdx hi (decide_eq_false hg.symm)]

theorem RetryInv.arrived (h : RetryInv isStorable w) {i vow : ℕ} {value : ν}
    (hi : w.nextSteps[i]? = some (vow, value)) :
    RetryInv isStorable (w.arrived isStorable i vow value) := by
  obtain ⟨s, hf, hdone, hreport, houtcome⟩ := h.core.pending (List.mem_of_getElem? hi)
  have hself : (w.arrived isStorable i vow value).outcome vow = _ :=
    outcome_arrived_self hi houtcome
  refine ⟨?_, h.current, h.started⟩
  apply h.core.same (t := w.arrived isStorable i vow value) rfl
  · exact List.length_set
  · exact .refl _
  · rfl
  · intro g s' hg
    by_cases heq : g = vow
    · rw [heq] at hg ⊢
      cases hf.symm.trans hg
      have hflow := h.core.flows vow s hf
      constructor
      · exact hflow.kit
      · exact fun hopen => nomatch hopen.symm.trans hdone
      · exact fun _ => ⟨.fulfilled value, hreport, .inr hself⟩
    · exact (h.core.flows g s' hg).mono (outcome_arrived_other hi heq) fun _ hmem => hmem
  · intro k hk
    apply outcome_arrived_other hi
    intro heq
    have hlt := (List.getElem?_eq_some_iff.mp hf).1
    omega
  · exact fun _ hmem => .inl hmem
  · have hheld : ({ w with nextSteps := w.nextSteps.eraseIdx i } : RetryWorld ν κ).Held :=
      h.core.held
    exact held_settled hheld .fulfilled (.inl rfl)

theorem RetryInv.restarted (h : RetryInv isStorable w) (hf : w.flows[f]? = some s)
    (hopen : s.isDone = false) : RetryInv isStorable (w.restarted f s) where
  core := h.core.restarted hf hopen
  current := h.core.restarted_current hf fun g _ => h.current g
  started := started_set (fun g s _ => h.started g s) (Nat.succ_pos _) rfl

/-- A flow and its outcome vow, before its first run. -/
def RetryWorld.made (w : RetryWorld ν κ) (args : List ν) : RetryWorld ν κ :=
  { w with
    vows := w.vows ++ [{}]
    flows := w.flows ++ [{ activationArgs := args, outcomeKit := w.flows.length }]
    flowForOutcomeVowKey := w.flowForOutcomeVowKey.insert w.flows.length w.flows.length }

theorem made_last (w : RetryWorld ν κ) (args : List ν) : (w.made args).flows[w.flows.length]? =
    some { activationArgs := args, outcomeKit := w.flows.length } := List.getElem?_concat_length

theorem made_other (w : RetryWorld ν κ) (args : List ν) {g : ℕ} (hg : g ≠ w.flows.length) :
    (w.made args).flows[g]? = w.flows[g]? := by
  unfold RetryWorld.made
  dsimp only
  rw [List.getElem?_append]
  split
  · rfl
  · rw [List.getElem?_eq_none (by simp; omega), List.getElem?_eq_none (by omega)]

theorem RetryCore.not_found (h : RetryCore isStorable w) :
    w.flowForOutcomeVowKey.has w.flows.length = false := by
  have hfound := h.found w.flows.length
  unfold RetryWorld.isOpen at hfound
  rw [List.getElem?_eq_none (le_refl _)] at hfound
  unfold Table.has
  rw [hfound]
  rfl

theorem initFlow_run {vow flow : ℕ} (h : w.flowForOutcomeVowKey.has vow = false) :
    initFlow vow flow w = .ok ⟨⟩ { w with
      flowForOutcomeVowKey := w.flowForOutcomeVowKey.insert vow flow } := by
  unfold initFlow
  rw [bind_run get_run, h]
  rfl

theorem makeRetryableFlowKit_run (h : RetryCore isStorable w) (args : List ν) :
    makeRetryableFlowKit args w = .ok ⟨⟩ ((w.made args).restarted w.flows.length
      { activationArgs := args, outcomeKit := w.flows.length }) := by
  have hrestart := restart_run (made_last w args) rfl
  let kept : RetryWorld ν κ := { w with
    vows := w.vows ++ [{}]
    flows := w.flows ++ [{ activationArgs := args, outcomeKit := w.vows.length }] }
  have hinit : initFlow w.vows.length w.flows.length kept = .ok ⟨⟩ (w.made args) := by
    have hhas := h.not_found
    rw [← h.vows] at hhas
    rw [initFlow_run (w := kept) hhas]
    unfold RetryWorld.made kept
    rw [h.vows]
  have hchain : (do initFlow w.vows.length w.flows.length; restart w.flows.length :
      Retry ν κ Unit) kept = restart w.flows.length (w.made args) := bind_run hinit
  have hmake : makeRetryableFlowKit args w =
      (do initFlow w.vows.length w.flows.length; restart w.flows.length : Retry ν κ Unit) kept :=
    rfl
  exact hmake.trans (hchain.trans hrestart)

theorem RetryCore.made (h : RetryCore isStorable w) (args : List ν) :
    RetryCore isStorable (w.made args) := by
  have hother : ∀ g, g ≠ w.flows.length → (w.made args).outcome g = w.outcome g := by
    intro g hg
    unfold RetryWorld.outcome RetryWorld.made
    dsimp only
    rw [List.getElem?_append, h.vows]
    split
    · rfl
    · rw [List.getElem?_eq_none (by simp; omega), List.getElem?_eq_none (by rw [h.vows]; omega)]
  have hself : (w.made args).outcome w.flows.length = (some {}, [], []) := by
    have hfresh := h.fresh w.flows.length (le_refl _)
    simp only [Prod.mk.injEq] at hfresh
    unfold RetryWorld.outcome RetryWorld.made
    dsimp only
    rw [hfresh.2.1, hfresh.2.2, ← h.vows, List.getElem?_concat_length]
  have hlast := made_last w args
  constructor
  case vows =>
    unfold RetryWorld.made
    rw [List.length_append, List.length_append, h.vows]
    rfl
  case runs =>
    apply h.runs.move
    · exact .refl _
    · intro g
      by_cases hg : g = w.flows.length
      · rw [hg, runsOf_eq hlast]
        unfold RetryWorld.runsOf
        rw [List.getElem?_eq_none (le_refl _)]
        rfl
      · unfold RetryWorld.runsOf
        rw [made_other w args hg]
  case found =>
    intro k
    unfold RetryWorld.made
    dsimp only
    rw [Table.lookup_insert]
    by_cases hk : k = w.flows.length
    · have hopen := isOpen_eq hlast
      rw [hk, if_pos rfl]
      exact (if_pos hopen).symm
    · rw [if_neg hk, h.found k]
      have hsame : (w.made args).isOpen k = w.isOpen k := by
        unfold RetryWorld.isOpen
        rw [made_other w args hk]
      exact if_congr (by rw [← hsame]; rfl) rfl rfl
  case flows =>
    intro g s hg
    by_cases heq : g = w.flows.length
    · rw [heq] at hg ⊢
      cases hlast.symm.trans hg
      constructor
      · rfl
      · exact fun _ => hself
      · exact fun hdone => nomatch hdone
    · rw [made_other w args heq] at hg
      exact (h.flows g s hg).mono (hother g heq) fun _ hmem => hmem
  case fresh =>
    intro k hk
    unfold RetryWorld.made at hk
    rw [List.length_append] at hk
    rw [hother k (by simp at hk; omega)]
    exact h.fresh k (by omega)
  case failures => exact h.failures
  case held => exact h.held

theorem RetryInv.activated (h : RetryInv isStorable w) (args : List ν) :
    RetryInv isStorable (w.run (makeRetryableFlowKit args)) := by
  have hlast := made_last w args
  have hcore := h.core.made args
  unfold RetryWorld.run
  rw [makeRetryableFlowKit_run h.core]
  refine ⟨hcore.restarted hlast rfl, hcore.restarted_current hlast ?_, ?_⟩
  · intro g hg s hs
    exact h.current g s ((made_other w args hg).symm.trans hs)
  · refine started_set (w := w.made args) ?_ (Nat.succ_pos _) rfl
    intro g s hg hs
    exact h.started g s ((made_other w args hg).symm.trans hs)

theorem restart_cases (hlt : f < w.flows.length) :
    ∃ s, w.flows[f]? = some s ∧
      ((s.isDone = false ∧ w.run (restart f) = w.restarted f s) ∨
        (s.isDone = true ∧
          w.run (restart f) = { w with failures := w.failures ++ [.cannotRestart f] })) := by
  obtain ⟨s, hs⟩ : ∃ s, w.flows[f]? = some s := ⟨_, List.getElem?_eq_getElem hlt⟩
  refine ⟨s, hs, ?_⟩
  unfold RetryWorld.run
  cases hdone : s.isDone with
  | false =>
    rw [restart_run hs hdone]
    exact .inl ⟨rfl, rfl⟩
  | true =>
    rw [restart_done hs hdone]
    exact .inr ⟨rfl, rfl⟩

theorem RetryInv.failed (h : RetryInv isStorable w) (f : ℕ) :
    RetryInv isStorable { w with failures := w.failures ++ [.cannotRestart f] } where
  core := by
    apply h.core.same (t := { w with failures := w.failures ++ [.cannotRestart f] }) rfl rfl
    · exact .refl _
    · rfl
    · exact fun f s hf => (h.core.flows f s hf).mono rfl fun _ hmem => hmem
    · exact fun _ _ => rfl
    · intro failure hmem
      rcases List.mem_append.mp hmem with hmem | hmem
      · exact .inl hmem
      · exact .inr ⟨f, List.mem_singleton.mp hmem⟩
    · exact h.core.held
  current := h.current
  started := h.started

theorem reports_step {i : ℕ}
    (hstep : retryStep isStorable isRetryableReason w (.reports i) = some t) :
    ∃ run result, w.watched[i]? = some (run, some result) ∧
      t = (w.taken i run result).run (resultWatcher isStorable isRetryableReason run result) := by
  unfold retryStep at hstep
  dsimp only at hstep
  split at hstep
  case h_1 run result _ hi =>
    cases hstep
    exact ⟨run, result, hi, rfl⟩
  case h_2 => cases hstep

theorem RetryInv.step (h : RetryInv isStorable w) {event : RetryEvent ν}
    (hstep : retryStep isStorable isRetryableReason w event = some t) :
    RetryInv isStorable t := by
  cases event with
  | activate args =>
    cases hstep
    exact h.activated args
  | restart flow =>
    obtain ⟨hlt, hstep⟩ := Option.ite_none_right_eq_some.mp hstep
    cases hstep
    obtain ⟨s, hs, ⟨hopen, heq⟩ | ⟨-, heq⟩⟩ := restart_cases hlt
    · rw [heq]
      exact h.restarted hs hopen
    · rw [heq]
      exact h.failed flow
  | returns result =>
    unfold retryStep at hstep
    dsimp only at hstep
    split at hstep
    · cases hstep
    case h_2 run args calling hcalling =>
      cases hstep
      refine h.moved ?_ fun _ _ hlookup => hlookup
      rw [hcalling]
      simp only [List.map_append, List.map_cons, List.map_nil]
      apply List.perm_iff_count.mpr
      intro a
      simp only [List.count_append, List.count_cons, List.count_nil]
      omega
  | settles i result =>
    unfold retryStep at hstep
    dsimp only at hstep
    split at hstep
    case h_1 run hi =>
      cases hstep
      refine h.moved ?_ fun _ _ hlookup => hlookup
      rw [map_set (y := (run, some result)) hi rfl]
    case h_2 => cases hstep
  | reports i =>
    obtain ⟨run, result, hi, rfl⟩ := reports_step hstep
    exact (h.reports hi).2
  | nextStep i =>
    unfold retryStep at hstep
    dsimp only at hstep
    split at hstep
    case h_1 vow value _ hi =>
      cases hstep
      have hrun : RetryWorld.run (watchNextStepOnFulfilled isStorable vow value)
          { w with nextSteps := w.nextSteps.eraseIdx i } = w.arrived isStorable i vow value := by
        unfold RetryWorld.run watchNextStepOnFulfilled
        rw [settleStep_run]
        rfl
      rw [hrun]
      exact h.arrived hi
    case h_2 => cases hstep
  | upgrade lost disconnection =>
    unfold retryStep at hstep
    dsimp only at hstep
    split at hstep
    case h_1 hcalling _ =>
      cases hstep
      refine h.moved ?_ fun _ _ hlookup => nomatch hlookup
      have hsame : Prod.fst ∘ loseResult lost disconnection = Prod.fst := by
        funext ⟨run, result⟩
        cases result <;> rfl
      rw [List.map_map, hsame]
    case h_2 => cases hstep

end Steps

section Safety

variable {isStorable : ν → Bool} {isRetryableReason : ν → Option κ → Option κ}

/-- The outcome vow has settled once. Only a value that could not be stored may be gone. -/
structure Settled (isStorable : ν → Bool) (w : RetryWorld ν κ) (vow : ℕ) (result : Result ν) :
    Prop where
  once : (w.settlements.filter fun settlement => settlement.1 = vow) = [(vow, result)]
  shorten : w.shorten vow = some (some result) ∨
    (isStorable result.value = false ∧ w.shorten vow = some none)

structure OneOutcome (isStorable : ν → Bool) (w : RetryWorld ν κ) (f : ℕ)
    (s : RetryableFlow ν κ) : Prop where
  found : w.flowForOutcomeVowKey.lookup s.outcomeKit = if s.isDone then none else some f
  /-- The outcome is open as long as the latest run has not given its result. -/
  opened : s.isDone = false →
    (w.settlements.filter fun settlement => settlement.1 = s.outcomeKit) = [] ∧
      ((⟨f, s.runs⟩ : Run) ∈ w.calling.map Prod.fst ∨
        (⟨f, s.runs⟩ : Run) ∈ w.watched.map Prod.fst)
  /-- The outcome is the result of the latest run, and a value may be on its way to the vow. -/
  done : s.isDone = true → ∃ result, (⟨f, s.runs⟩, result) ∈ w.reports ∧
    (Settled isStorable w s.outcomeKit result ∨
      (w.settlements.filter fun settlement => settlement.1 = s.outcomeKit) = [] ∧
        ∃ value, result = .fulfilled value ∧ (s.outcomeKit, value) ∈ w.nextSteps)

structure RetrySafe (isStorable : ν → Bool) (w : RetryWorld ν κ) : Prop where
  flows : ∀ f s, w.flows[f]? = some s → OneOutcome isStorable w f s
  found : ∀ vow f, w.flowForOutcomeVowKey.lookup vow = some f →
    ∃ s, w.flows[f]? = some s ∧ s.outcomeKit = vow ∧ s.isDone = false
  reportedOnce : (w.reports.map Prod.fst).Nodup
  failures : ∀ failure ∈ w.failures, ∃ f, failure = .cannotRestart f

/-- A run is started for a new flow, by a restart, or by the watcher: for a rejection of the
latest run that is to be retried. -/
def StartsRun (isRetryableReason : ν → Option κ → Option κ) (w : RetryWorld ν κ) (f : ℕ) :
    RetryEvent ν → Prop
  | .activate _ => f = w.flows.length
  | .restart flow => f = flow
  | .reports i => ∃ s reason retryReason, w.flows[f]? = some s ∧ s.isDone = false ∧
      w.watched[i]? = some (⟨f, s.runs⟩, some (.rejected reason)) ∧
      isRetryableReason reason s.lastRetryReason = some retryReason
  | _ => False

theorem shorten_settled (h : RetryCore isStorable w) {result : Result ν}
    (houtcome : w.outcome f = (some (settledVow isStorable result), [], [(f, result)])) :
    Settled isStorable w f result := by
  simp only [Prod.mk.injEq] at houtcome
  obtain ⟨hvow, -, hsettlements⟩ := houtcome
  refine ⟨hsettlements, ?_⟩
  have hheld : ∀ value, w.resolverToNonStoredValue.lookup f = some value →
      result.value = value := by
    intro value hlookup
    have hmem : ∀ result', (f, result') ∈ w.settlements → result' = result := by
      intro result' hmem
      have hfilter : (f, result') ∈ w.settlements.filter fun settlement => settlement.1 = f :=
        List.mem_filter.mpr ⟨hmem, decide_eq_true rfl⟩
      rw [hsettlements] at hfilter
      cases List.mem_singleton.mp hfilter
      rfl
    rcases h.held f value hlookup with hin | hin
    · rw [← hmem _ hin]
      rfl
    · rw [← hmem _ hin]
      rfl
  unfold RetryWorld.shorten
  rw [hvow]
  cases result with
  | fulfilled value =>
    dsimp only [settledVow, settledStep]
    cases hstorable : isStorable value with
    | true => exact .inl rfl
    | false =>
      cases hlookup : w.resolverToNonStoredValue.lookup f with
      | none => exact .inr ⟨hstorable, rfl⟩
      | some value' =>
        rw [← hheld value' hlookup]
        exact .inl rfl
  | rejected reason =>
    dsimp only [settledVow, settledStep]
    cases hlookup : w.resolverToNonStoredValue.lookup f with
    | none =>
      cases hstorable : isStorable reason with
      | true => exact .inl rfl
      | false => exact .inr ⟨hstorable, rfl⟩
    | some reason' =>
      rw [← hheld reason' hlookup]
      exact .inl rfl

theorem RetryInv.oneOutcome (h : RetryInv isStorable w) (hf : w.flows[f]? = some s) :
    OneOutcome isStorable w f s := by
  have hflow := h.core.flows f s hf
  constructor
  case found =>
    have hfound := h.core.found f
    rw [isOpen_eq hf] at hfound
    rw [hflow.kit, hfound]
    cases s.isDone <;> rfl
  case opened =>
    intro hopen
    have houtcome := hflow.opened hopen
    simp only [Prod.mk.injEq] at houtcome
    rw [hflow.kit]
    refine ⟨houtcome.2.2, ?_⟩
    have hlatest : (⟨f, s.runs⟩ : Run) ∈ w.allRuns := by
      apply (h.core.runs.mem _).mpr
      exact ⟨h.started f s hf, (runsOf_eq hf).ge⟩
    rcases List.mem_append.mp hlatest with hcalling | hlatest
    · exact .inl hcalling
    · rcases List.mem_append.mp hlatest with hwatched | hreport
      · exact .inr hwatched
      · exact absurd hreport (h.current f s hf hopen)
  case done =>
    intro hdone
    obtain ⟨result, hreport, ⟨value, hresult, houtcome⟩ | houtcome⟩ := hflow.done hdone
    · simp only [Prod.mk.injEq] at houtcome
      rw [hflow.kit]
      refine ⟨result, hreport, .inr ⟨houtcome.2.2, value, hresult, ?_⟩⟩
      have hmem : (f, value) ∈ w.nextSteps.filter fun step => step.1 = f := by
        rw [houtcome.2.1]
        exact List.mem_singleton_self _
      exact (List.mem_filter.mp hmem).1
    · rw [hflow.kit]
      exact ⟨result, hreport, .inl (shorten_settled h.core houtcome)⟩

theorem RetryInv.safe (h : RetryInv isStorable w) : RetrySafe isStorable w where
  flows _ _ hf := h.oneOutcome hf
  found vow f hlookup := by
    rw [h.core.found vow] at hlookup
    obtain ⟨hopen, hvow⟩ := Option.ite_none_right_eq_some.mp hlookup
    cases hvow
    cases hs : w.flows[vow]? with
    | none =>
      unfold RetryWorld.isOpen at hopen
      rw [hs] at hopen
      cases hopen
    | some s =>
      rw [isOpen_eq hs] at hopen
      exact ⟨s, rfl, (h.core.flows vow s hs).kit, (Bool.not_eq_true' _).mp hopen⟩
  reportedOnce := (List.nodup_append.mp (List.nodup_append.mp h.core.runs.nodup).2.1).2.1
  failures := h.core.failures

theorem runsOf_set {s' : RetryableFlow ν κ} (hf : w.flows[f]? = some s)
    (hflows : t.flows = w.flows.set f s') (g : ℕ) :
    t.runsOf g = if g = f then s'.runs else w.runsOf g := by
  by_cases hg : g = f
  · rw [hg, if_pos rfl]
    apply runsOf_eq
    rw [hflows]
    exact List.getElem?_set_self (List.getElem?_eq_some_iff.mp hf).1
  · rw [if_neg hg]
    unfold RetryWorld.runsOf
    rw [hflows, getFlow_set hg]

theorem Reported.startsRun {run : Run} {result : Result ν} {g : ℕ}
    (hreported : Reported isStorable isRetryableReason w run result t)
    (hruns : t.runsOf g ≠ w.runsOf g) :
    ∃ s reason retryReason, w.flows[g]? = some s ∧ s.isDone = false ∧ run = ⟨g, s.runs⟩ ∧
      result = .rejected reason ∧ isRetryableReason reason s.lastRetryReason = some retryReason ∧
      t.runsOf g = w.runsOf g + 1 := by
  have hsame : ∀ {t : RetryWorld ν κ} {s : RetryableFlow ν κ}, w.flows[run.flow]? = some s →
      t.flows = w.flows.set run.flow { s with isDone := true } → t.runsOf g = w.runsOf g := by
    intro t s hf hflows
    rw [runsOf_set hf hflows]
    split
    case isTrue heq => rw [heq, runsOf_eq hf]
    case isFalse => rfl
  cases hreported with
  | stale => exact absurd rfl hruns
  | fulfilled hf => exact absurd (hsame hf rfl) hruns
  | rejected hf => exact absurd (hsame hf rfl) hruns
  | @retried reason retryReason s hf hopen hlatest hreason =>
    have hset := runsOf_set (t := (w.retrying run.flow s retryReason).restarted run.flow
      { s with lastRetryReason := some retryReason }) hf (List.set_set _) g
    by_cases hg : g = run.flow
    · rw [if_pos hg] at hset
      rw [hset, hg, runsOf_eq hf]
      refine ⟨s, reason, retryReason, hf, hopen, ?_, rfl, hreason, rfl⟩
      rw [← hlatest]
    · rw [if_neg hg] at hset
      exact absurd hset hruns

theorem RetryInv.startsRun (h : RetryInv isStorable w) {event : RetryEvent ν} {g : ℕ}
    (hstep : retryStep isStorable isRetryableReason w event = some t)
    (hruns : t.runsOf g ≠ w.runsOf g) :
    StartsRun isRetryableReason w g event ∧ t.runsOf g = w.runsOf g + 1 := by
  cases event with
  | activate args =>
    cases hstep
    unfold RetryWorld.run at hruns ⊢
    rw [makeRetryableFlowKit_run h.core] at hruns ⊢
    have hset := runsOf_set (t := (w.made args).restarted w.flows.length
      { activationArgs := args, outcomeKit := w.flows.length }) (made_last w args) rfl g
    dsimp only at hruns ⊢
    by_cases hg : g = w.flows.length
    · rw [if_pos hg] at hset
      refine ⟨hg, ?_⟩
      have hnone : w.runsOf g = 0 := by
        unfold RetryWorld.runsOf
        rw [List.getElem?_eq_none hg.ge]
        rfl
      rw [hset, hnone]
    · rw [if_neg hg] at hset
      have hother : (w.made args).runsOf g = w.runsOf g := by
        unfold RetryWorld.runsOf
        rw [made_other w args hg]
      exact absurd (hset.trans hother) hruns
  | restart flow =>
    obtain ⟨hlt, hstep⟩ := Option.ite_none_right_eq_some.mp hstep
    cases hstep
    obtain ⟨s, hs, ⟨hopen, heq⟩ | ⟨-, heq⟩⟩ := restart_cases hlt
    · rw [heq] at hruns ⊢
      have hset := runsOf_set (t := w.restarted flow s) hs rfl g
      by_cases hg : g = flow
      · rw [if_pos hg] at hset
        rw [hset, hg, runsOf_eq hs]
        exact ⟨rfl, rfl⟩
      · rw [if_neg hg] at hset
        exact absurd hset hruns
    · rw [heq] at hruns
      exact absurd rfl hruns
  | reports i =>
    obtain ⟨run, result, hi, rfl⟩ := reports_step hstep
    have hreported : Reported isStorable isRetryableReason (w.taken i run result) run result _ :=
      (h.reports hi).1
    obtain ⟨s, reason, retryReason, hs, hopen, hrun, hresult, hreason, hmore⟩ :=
      hreported.startsRun hruns
    rw [hrun, hresult] at hi
    exact ⟨⟨s, reason, retryReason, hs, hopen, hi, hreason⟩, hmore⟩
  | returns result =>
    unfold retryStep at hstep
    dsimp only at hstep
    split at hstep <;> cases hstep
    exact absurd rfl hruns
  | settles i result =>
    unfold retryStep at hstep
    dsimp only at hstep
    split at hstep <;> cases hstep
    exact absurd rfl hruns
  | nextStep i =>
    unfold retryStep at hstep
    dsimp only at hstep
    split at hstep <;> cases hstep
    unfold RetryWorld.run watchNextStepOnFulfilled at hruns
    rw [settleStep_run] at hruns
    exact absurd rfl hruns
  | upgrade lost disconnection =>
    unfold retryStep at hstep
    dsimp only at hstep
    split at hstep <;> cases hstep
    exact absurd rfl hruns

theorem retryInv_reachable
    (h : (retryable isStorable isRetryableReason).Reachable anyStep w) :
    RetryInv isStorable w := by
  apply h.invariant
  · rintro _ rfl
    constructor
    · constructor
      · rfl
      · refine ⟨List.nodup_nil, fun run => ⟨nofun, fun hrun => ?_⟩⟩
        exact absurd hrun.2 (Nat.not_le.mpr hrun.1)
      · exact fun _ => rfl
      · exact nofun
      · exact fun _ _ => rfl
      · exact nofun
      · exact nofun
    · exact nofun
    · exact nofun
  · exact fun _ _ _ hinv _ hstep => hinv.step hstep

end Safety

end AgoricSdk.Vow
