import AgoricSdk.Lib.Transition

/-!
Methods that run one at a time. Each call waits in a queue, and the chain of promises that runs
the front of the queue starts the next one when it has settled its caller's promise.
-/

namespace AgoricSdk.WithQueue

variable {ρ : Type}

section Source

/-- Which reaction of the chain comes next. -/
inductive Phase (ρ : Type) where
  /-- The thunk is run in a new turn. -/
  | scheduled
  /-- The thunk has been run, and what it returned is awaited. -/
  | running
  /-- The caller's promise is settled next. -/
  | ended (outcome : ρ)
  /-- The queue is shifted next. -/
  | settled
  deriving DecidableEq

/-- A promise chain, with the number of the call whose thunk it has. -/
structure Chain (ρ : Type) where
  call : ℕ
  phase : Phase ρ
  deriving DecidableEq

/-- Calls are numbered in the order they are made. -/
structure QueueState (ρ : Type) where
  calls : ℕ := 0
  queue : List ℕ := []
  chains : List (Chain ρ) := []
  /-- The thunks that were run, in order. -/
  started : List ℕ := []
  /-- What the thunks came to, in order. -/
  outcomes : List (ℕ × ρ) := []
  /-- How the callers' promises were settled, in order. -/
  settled : List (ℕ × ρ) := []

/-- Execute the thunk at the front of the queue. -/
def dequeue (s : QueueState ρ) : QueueState ρ :=
  match s.queue with
  | [] => s
  | call :: _ => { s with chains := s.chains ++ [⟨call, .scheduled⟩] }

def queueCall (s : QueueState ρ) : QueueState ρ :=
  let s := { s with calls := s.calls + 1, queue := s.queue ++ [s.calls] }
  if s.queue.length = 1 then dequeue s else s

/-- The next reaction of a chain; a thunk that was run ends in its own time. -/
def react (s : QueueState ρ) (i : ℕ) (chain : Chain ρ) : Option (QueueState ρ) :=
  match chain.phase with
  | .scheduled => some { s with
      chains := s.chains.set i { chain with phase := .running }
      started := s.started ++ [chain.call] }
  | .running => none
  | .ended outcome => some { s with
      chains := s.chains.set i { chain with phase := .settled }
      settled := s.settled ++ [(chain.call, outcome)] }
  | .settled =>
    let s := { s with chains := s.chains.eraseIdx i, queue := s.queue.tail }
    some (if s.queue.length = 0 then s else dequeue s)

inductive QueueAction (ρ : Type) where
  /-- A method is called, from anywhere, also from a thunk. -/
  | call
  | turn (chain : ℕ)
  /-- What a thunk returned is fulfilled or rejected, or the thunk throws. -/
  | finish (chain : ℕ) (outcome : ρ)

def step (s : QueueState ρ) : QueueAction ρ → Option (QueueState ρ)
  | .call => some (queueCall s)
  | .turn i => do react s i (← s.chains[i]?)
  | .finish i outcome => do
    let chain ← s.chains[i]?
    match chain.phase with
    | .running => some { s with
        chains := s.chains.set i { chain with phase := .ended outcome }
        outcomes := s.outcomes ++ [(chain.call, outcome)] }
    | _ => none

def withQueue : TransitionSystem (QueueState ρ) (QueueAction ρ) where
  init s := s = {}
  step := step

end Source

section Runs

open TransitionSystem

variable {s t : QueueState ρ} {done : ℕ} {phase : Phase ρ}

/-- No call waits: every thunk was run, and every caller's promise settled. -/
structure Idle (s : QueueState ρ) : Prop where
  queue : s.queue = []
  chains : s.chains = []
  started : s.started = List.range s.calls
  settled : s.settled.map Prod.fst = List.range s.calls
  outcomes : s.outcomes = s.settled

def Phase.startedCount : Phase ρ → ℕ
  | .scheduled => 0
  | _ => 1

def Phase.settledCount : Phase ρ → ℕ
  | .settled => 1
  | _ => 0

/-- What the thunk came to, until its caller knows. -/
def Phase.pending : Phase ρ → List ρ
  | .ended outcome => [outcome]
  | _ => []

/-- One chain has the front of the queue, and the calls before it are done. -/
structure Serving (s : QueueState ρ) (done : ℕ) (phase : Phase ρ) : Prop where
  queue : s.queue = List.range' done (s.calls - done)
  waiting : done < s.calls
  chains : s.chains = [⟨done, phase⟩]
  started : s.started = List.range (done + phase.startedCount)
  settled : s.settled.map Prod.fst = List.range (done + phase.settledCount)
  outcomes : s.outcomes = s.settled ++ phase.pending.map fun outcome => (done, outcome)

def OneAtATime (s : QueueState ρ) : Prop := Idle s ∨ ∃ done phase, Serving s done phase

theorem Serving.cons (h : Serving s done phase) :
    s.queue = done :: List.range' (done + 1) (s.calls - (done + 1)) := by
  have hwaiting := h.waiting
  rw [h.queue, show s.calls - done = (s.calls - (done + 1)) + 1 by omega, List.range'_succ]

theorem OneAtATime.queueCall (h : OneAtATime s) : OneAtATime (queueCall s) := by
  rcases h with h | ⟨done, phase, h⟩
  · right
    refine ⟨s.calls, .scheduled, ?_⟩
    unfold WithQueue.queueCall
    simp only [h.queue, List.nil_append, List.length_singleton, if_true, dequeue]
    exact
      { queue := by simp
        waiting := Nat.lt_succ_self _
        chains := by simp [h.chains]
        started := h.started
        settled := h.settled
        outcomes := by simp [h.outcomes, Phase.pending] }
  · right
    have hcons := h.cons
    have hlength : ¬ (s.queue ++ [s.calls]).length = 1 := by simp [hcons]
    have hwaiting := h.waiting
    unfold WithQueue.queueCall
    dsimp only
    rw [if_neg hlength]
    refine ⟨done, phase, { h with queue := ?_, waiting := by dsimp only; omega }⟩
    change s.queue ++ [s.calls] = _
    rw [h.queue, show s.calls + 1 - done = (s.calls - done) + 1 by omega, List.range'_concat]
    simp
    omega

theorem Serving.chain (h : Serving s done phase) {i : ℕ} {chain : Chain ρ}
    (hchain : s.chains[i]? = some chain) : i = 0 ∧ chain = ⟨done, phase⟩ := by
  rw [h.chains] at hchain
  obtain ⟨hlt, heq⟩ := List.getElem?_eq_some_iff.mp hchain
  have hi : i = 0 := by simpa using hlt
  subst hi
  exact ⟨rfl, heq.symm⟩

/-- The front of the queue is done, and the next call is served if there is one. -/
theorem Serving.shift (h : Serving s done .settled) (ht : react s 0 ⟨done, .settled⟩ = some t) :
    OneAtATime t := by
  have hwaiting := h.waiting
  have hstarted := h.started
  have hsettled := h.settled
  have houtcomes := h.outcomes
  unfold react at ht
  dsimp only at ht
  rw [h.cons, h.chains] at ht
  simp only [List.tail_cons, List.eraseIdx_cons_zero, List.length_range',
    Option.some.injEq] at ht
  by_cases hlast : s.calls - (done + 1) = 0
  · left
    have hcalls : done + 1 = s.calls := by omega
    rw [if_pos hlast, hlast] at ht
    subst ht
    exact
      { queue := rfl
        chains := rfl
        started := by rw [hstarted]; simp [Phase.startedCount, hcalls]
        settled := by rw [hsettled]; simp [Phase.settledCount, hcalls]
        outcomes := by rw [houtcomes]; simp [Phase.pending] }
  · right
    obtain ⟨n, hn⟩ := Nat.exists_eq_succ_of_ne_zero hlast
    rw [if_neg hlast, hn, List.range'_succ] at ht
    subst ht
    refine ⟨done + 1, .scheduled, ?_⟩
    exact
      { queue := by
          change _ = List.range' _ (s.calls - (done + 1))
          rw [hn, List.range'_succ]
          rfl
        waiting := by change done + 1 < s.calls; omega
        chains := rfl
        started := hstarted
        settled := hsettled
        outcomes := by
          change s.outcomes = s.settled ++ []
          rw [houtcomes]
          rfl }

theorem OneAtATime.step (h : OneAtATime s) {a : QueueAction ρ} (hstep : step s a = some t) :
    OneAtATime t := by
  cases a with
  | call =>
    cases hstep
    exact h.queueCall
  | turn i =>
    obtain ⟨chain, hchain, hreact⟩ := Option.bind_eq_some_iff.mp hstep
    rcases h with h | ⟨done, phase, h⟩
    · rw [h.chains] at hchain
      cases hchain
    obtain ⟨rfl, rfl⟩ := h.chain hchain
    cases phase with
    | scheduled =>
      cases hreact
      refine .inr ⟨done, .running, { h with chains := ?_, started := ?_ }⟩
      · rw [h.chains]
        rfl
      · change s.started ++ [done] = _
        rw [h.started]
        exact List.range_succ.symm
    | running => cases hreact
    | ended outcome =>
      cases hreact
      refine .inr ⟨done, .settled, { h with chains := ?_, settled := ?_, outcomes := ?_ }⟩
      · rw [h.chains]
        rfl
      · change (s.settled ++ [(done, outcome)]).map Prod.fst = _
        rw [List.map_append, h.settled]
        exact List.range_succ.symm
      · change s.outcomes = (s.settled ++ [(done, outcome)]) ++ []
        rw [h.outcomes, List.append_nil]
        rfl
    | settled => exact h.shift hreact
  | finish i outcome =>
    obtain ⟨chain, hchain, hfinish⟩ := Option.bind_eq_some_iff.mp hstep
    rcases h with h | ⟨done, phase, h⟩
    · rw [h.chains] at hchain
      cases hchain
    obtain ⟨rfl, rfl⟩ := h.chain hchain
    cases phase with
    | running =>
      cases hfinish
      refine .inr ⟨done, .ended outcome, { h with chains := ?_, outcomes := ?_ }⟩
      · rw [h.chains]
        rfl
      · change s.outcomes ++ [(done, outcome)] = _
        rw [h.outcomes]
        simp [Phase.pending]
    | scheduled => cases hfinish
    | ended => cases hfinish
    | settled => cases hfinish

/-- The thunks run in the order of their calls, each when the callers before have their results;
each promise is settled once, with what its own thunk came to; and the queue never gets stuck. -/
theorem withQueue_serial (h : withQueue.Reachable anyStep s) :
    (∃ n ≤ s.calls, s.started = List.range n ∧ n ≤ s.settled.length + 1) ∧
      s.settled <+: s.outcomes ∧ s.settled.map Prod.fst <+: s.started ∧
      (s.queue = [] → s.settled.map Prod.fst = List.range s.calls) ∧
      (s.queue ≠ [] → ∀ outcome, (step s (.turn 0)).isSome ∨ (step s (.finish 0 outcome)).isSome) := by
  have hinv : OneAtATime s := by
    apply h.invariant
    · rintro s rfl
      exact .inl ⟨rfl, rfl, rfl, rfl, rfl⟩
    · intro s a t hinv _ hstep
      exact hinv.step hstep
  rcases hinv with hidle | ⟨done, phase, hserving⟩
  · have hlength := congrArg List.length hidle.settled
    rw [List.length_map, List.length_range] at hlength
    refine ⟨⟨s.calls, le_refl _, hidle.started, by omega⟩, by rw [hidle.outcomes], ?_,
      fun _ => hidle.settled, fun hne => absurd hidle.queue hne⟩
    rw [hidle.settled, hidle.started]
  · have hlength := congrArg List.length hserving.settled
    have hwaiting := hserving.waiting
    rw [List.length_map, List.length_range] at hlength
    have hcounts : phase.settledCount ≤ phase.startedCount ∧ phase.startedCount ≤ 1 := by
      cases phase <;> simp [Phase.settledCount, Phase.startedCount]
    refine ⟨⟨_, ?_, hserving.started, ?_⟩, ?_, ?_, ?_, ?_⟩
    · omega
    · omega
    · rw [hserving.outcomes]
      exact List.prefix_append _ _
    · obtain ⟨k, hk⟩ := Nat.exists_eq_add_of_le
        (show done + phase.settledCount ≤ done + phase.startedCount by omega)
      rw [hserving.settled, hserving.started, hk]
      generalize done + phase.settledCount = n
      rw [List.range_add]
      exact List.prefix_append _ _
    · intro hnil
      rw [hserving.cons] at hnil
      cases hnil
    · intro _ outcome
      unfold step
      simp only [hserving.chains]
      cases phase with
      | running => exact .inr rfl
      | scheduled => exact .inl rfl
      | ended => exact .inl rfl
      | settled => exact .inl rfl

/-- A thunk calls again, and fails; the second call is served after it. -/
theorem withQueue_serial_twoCalls : ∃ s : QueueState Bool,
    withQueue.runWhile anyStep {} [.call, .turn 0, .call, .finish 0 false, .turn 0, .turn 0,
      .turn 0, .finish 0 true, .turn 0] = some s ∧
      s.settled = [(0, false), (1, true)] ∧ s.settled <+: s.outcomes := by
  have hrun : (withQueue.runWhile anyStep ({} : QueueState Bool) [.call, .turn 0, .call,
      .finish 0 false, .turn 0, .turn 0, .turn 0, .finish 0 true, .turn 0]).map
        QueueState.settled = some [(0, false), (1, true)] := by
    decide
  obtain ⟨s, hs, hsettled⟩ := Option.map_eq_some_iff.mp hrun
  exact ⟨s, hs, hsettled, (withQueue_serial (.of_runWhile (.init rfl) hs)).2.1⟩

end Runs

end AgoricSdk.WithQueue
