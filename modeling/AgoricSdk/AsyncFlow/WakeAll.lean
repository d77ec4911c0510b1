import AgoricSdk.AsyncFlow.OrderlyFlows
import AgoricSdk.AsyncFlow.ReplayRuns
import Mathlib.Logic.Function.Basic

/-!
`adminAsyncFlow.wakeAll`: all flows that failed are restarted, then all eager wakers
are woken, in two plain loops. An exception that escapes from one flow ends the
loops. The second section says when one escapes from a restart, by the activation
arguments and the log of the flow; the last one what it takes for all calls to be
made.
-/

namespace AgoricSdk.AsyncFlow

open StateProgram

section Admin

abbrev FlowId := Nat

/-- The calls that `wakeAll` makes on flows. -/
inductive AdminCall where
  | restart (flow : FlowId)
  | wake (flow : FlowId)
deriving DecidableEq

/-- The flows, and the calls made on them so far. -/
structure AsyncFlows where
  flows : FlowId → Flow
  called : List AdminCall

abbrev AdminM := EStateM Problem AsyncFlows

/-- Run a method of a flow. -/
def onFlow (flow : FlowId) (m : FlowM Unit) : AdminM Unit := fun w =>
  match m (w.flows flow) with
  | .ok _ s => .ok ⟨⟩ { w with flows := Function.update w.flows flow s }
  | .error problem s => .error problem { w with flows := Function.update w.flows flow s }

variable (isStorable : HostCap → Bool) (startEager : FlowId → Bool)
  (guestAsyncFunc : FlowId → GuestValue → GuestTurn)

def AdminCall.flow : AdminCall → FlowId
  | .restart flow | .wake flow => flow

def AdminCall.method : AdminCall → FlowM Unit
  | .restart flow => AsyncFlow.restart isStorable (startEager flow) (guestAsyncFunc flow)
  | .wake flow => AsyncFlow.wake isStorable (startEager flow) (guestAsyncFunc flow)

def AdminCall.run (call : AdminCall) : AdminM Unit := do
  modify fun w => { w with called := w.called ++ [call] }
  onFlow call.flow (call.method isStorable startEager guestAsyncFunc)

/-- `wakeAll`, over the keys of the two stores in their orders. -/
def wakeAll (failuresToRestart flowsToWake : List FlowId) : AdminM Unit := do
  failuresToRestart.forM fun flow =>
    AdminCall.run isStorable startEager guestAsyncFunc (.restart flow)
  flowsToWake.forM fun flow =>
    AdminCall.run isStorable startEager guestAsyncFunc (.wake flow)

/-- The calls that `wakeAll` is to make, in its order. -/
def wakeAllCalls (failuresToRestart flowsToWake : List FlowId) : List AdminCall :=
  failuresToRestart.map .restart ++ flowsToWake.map .wake

end Admin

section Faults

variable (isStorable : HostCap → Bool)

/-- Can the flow give its guest the capability? -/
def Flow.convertible (flow : Flow) (h : HostCap) : Bool :=
  flow.h2g.has h || isConvertible isStorable h

def convertibleValue (convertible : HostCap → Bool) (value : HostValue) : Bool :=
  (HostValue.caps value).all convertible

/-- The guest has what stands for the vow, and it is no unresolved promise. -/
def Flow.closed (flow : Flow) (hostVow : VowId) : Bool :=
  match flow.h2g.lookup (.vow hostVow) with
  | none => false
  | some g => decide ((flow.membrane.bind fun membrane => membrane.guestPromiseMap.lookup g) ≠
      some .unresolved)

/-- Can the settlements that lead the log be replayed? -/
def settlementsReplay (convertible : HostCap → Bool) : (VowId → Bool) → List LogEntry → Bool
  | closed, .startGeneration _ :: rest => settlementsReplay convertible closed rest
  | closed, .doFulfill hostVow value :: rest =>
    convertible (.vow hostVow) && !closed hostVow && convertibleValue convertible value &&
      settlementsReplay convertible (Function.update closed hostVow true) rest
  | closed, .doReject hostVow value :: rest =>
    convertible (.vow hostVow) && !closed hostVow && convertibleValue convertible value &&
      settlementsReplay convertible (Function.update closed hostVow true) rest
  | _, _ => true

/-- The flow as the guest function leaves it when it returns its promise. -/
def Flow.afterFirstTurn (flow : Flow) (eager : Bool) (guestAsyncFunc : GuestValue → GuestTurn) :
    Flow :=
  match restartGuest isStorable eager flow with
  | .ok (m, guestArgs) next => finalState (runGuest isStorable m (guestAsyncFunc guestArgs)) next
  | .error _ next => next

/-- Why a restart throws before the guest runs: the flow is done or neither failed nor
at the start of its log, its arguments do not convert, or the settlements that lead its
log cannot be replayed. -/
inductive StartFault (flow : Flow) : Prop
  | done (h : flow.isDone = true)
  | astray (hfailure : flow.failure = none) (hmembrane : flow.membrane = none)
      (hindex : flow.eph.index ≠ 0)
  | arguments (h : convertibleValue (isConvertible isStorable) flow.activationArgs = false)
  | settlements (h : settlementsReplay (isConvertible isStorable) (fun _ => false)
      flow.mapStore = false)

/-- A restart throws for one of these reasons, or because the guest, still running after
its first turn, was given the vow for its own outcome. -/
inductive RestartFault (flow : Flow) (eager : Bool) (guestAsyncFunc : GuestValue → GuestTurn) :
    Prop
  | start (h : StartFault isStorable flow)
  | outcome (h : ¬ StartFault isStorable flow)
      (hfailure : (flow.afterFirstTurn isStorable eager guestAsyncFunc).failure = none)
      (hknown : (flow.afterFirstTurn isStorable eager guestAsyncFunc).h2g.has
        (.vow flow.outcomeVow) = true)

/-- Can the replay go on over the settlements that follow? -/
def Flow.replays (flow : Flow) : Bool :=
  settlementsReplay (flow.convertible isStorable) flow.closed flow.rest

/-- Why a wake throws: the flow has no proper state, it sleeps and its restart throws,
or it is replaying, in a call or at settlements that cannot be replayed. -/
inductive WakeFault (flow : Flow) (startEager : Bool) (guestAsyncFunc : GuestValue → GuestTurn) :
    Prop
  | astray (h : ∀ flowState, getFlowState flow ≠ .ok flowState flow)
  | asleep (h : getFlowState flow = .ok .sleeping flow)
      (hrestart : RestartFault isStorable flow startEager guestAsyncFunc)
  | replaying (h : getFlowState flow = .ok .replaying flow) {membrane : Membrane}
      (hm : flow.membrane = some membrane)
      (hreplay : membrane.callStack ≠ [] ∨ flow.replays isStorable = false)

end Faults

section Openings

variable {isStorable : HostCap → Bool} {s t : Flow} {h : HostCap} {m : Nat}

/-- A flow whose guest is in no call of the membrane. -/
structure Idle (m : Nat) (s : Flow) : Prop where
  orderly : Orderly s
  membrane : ∃ membrane, s.membrane = some membrane ∧ membrane.id = m ∧ membrane.callStack = []

/-- Conversions neither settle a vow nor change what can be converted. -/
structure Opens (isStorable : HostCap → Bool) (s t : Flow) : Prop where
  converts : Converts s t
  orderly : Orderly t
  convertible : ∀ h, t.convertible isStorable h = s.convertible isStorable h
  closed : ∀ v, t.closed v = s.closed v

theorem Orderly.opens (hs : Orderly s) : Opens isStorable s s :=
  ⟨.refl s, hs, fun _ => rfl, fun _ => rfl⟩

theorem Opens.trans {u : Flow} (h : Opens isStorable s t) (h' : Opens isStorable t u) :
    Opens isStorable s u where
  converts := h.converts.trans h'.converts
  orderly := h'.orderly
  convertible := fun x => (h'.convertible x).trans (h.convertible x)
  closed := fun v => (h'.closed v).trans (h.closed v)

theorem Opens.idle (h : Opens isStorable s t) (hs : Idle m s) : Idle m t where
  orderly := h.orderly
  membrane := by
    obtain ⟨membrane, hm, hid, hstack⟩ := hs.membrane
    have hrel := h.converts.membrane
    rw [hm] at hrel
    generalize t.membrane = b at hrel ⊢
    cases hrel with
    | @some _ membrane' hgrows =>
      refine ⟨membrane', rfl, ?_, ?_⟩
      · rw [hgrows.frame]
        exact hid
      · rw [hgrows.frame]
        exact hstack

theorem Idle.wrapped (hs : Idle m s) (hnone : s.h2g.lookup h = none)
    (hconvertible : isConvertible isStorable h = true) : Opens isStorable s (s.wrapped h) where
  converts := hs.orderly.coherent.wrapped_converts hnone
  orderly := hs.orderly.wrapped hnone
  convertible := fun x => by
    by_cases hx : x = h
    · subst hx
      simp [Flow.convertible, hconvertible]
    · simp [Flow.convertible, Flow.wrapped, Table.has, hx]
  closed := fun v => by
    obtain ⟨membrane, hm, -⟩ := hs.membrane
    by_cases hv : HostCap.vow v = h
    · subst hv
      simp [Flow.closed, Flow.wrapped, hnone, hm, noteWrapper]
    · cases hlookup : s.h2g.lookup (.vow v) with
      | none => simp [Flow.closed, Flow.wrapped, hv, hlookup]
      | some g =>
        have hne := hs.orderly.old_ne hlookup
        cases h <;> simp_all [Flow.closed, Flow.wrapped, noteWrapper]

theorem Idle.hostCapToGuest_spec (hs : Idle m s) (h : HostCap) :
    Wp (hostCapToGuest isStorable h)
      (fun g t => s.convertible isStorable h = true ∧ Opens isStorable s t ∧
        t.h2g.lookup h = some g)
      (fun _ _ => s.convertible isStorable h = false) s := by
  cases hlookup : s.h2g.lookup h with
  | some g =>
    apply hostCapToGuest_known hlookup
    exact ⟨by simp [Flow.convertible, Table.has, hlookup], hs.orderly.opens, hlookup⟩
  | none =>
    have hsame : s.convertible isStorable h = isConvertible isStorable h := by
      simp [Flow.convertible, Table.has, hlookup]
    rw [hsame]
    cases hconvertible : isConvertible isStorable h with
    | false =>
      apply wp_mono (hostCapToGuest_refused hlookup hconvertible)
      · exact fun _ _ hq => hq.elim
      · exact fun _ _ _ => rfl
    | true =>
      apply wp_mono (hostCapToGuest_new hs.orderly.coherent hlookup hconvertible)
      · rintro g t ⟨rfl, rfl⟩
        exact ⟨rfl, hs.wrapped hlookup hconvertible, by simp [Flow.wrapped]⟩
      · exact fun _ _ he => he.elim

theorem Idle.hostToGuest_spec (hs : Idle m s) (value : HostValue) :
    Wp (hostToGuest isStorable value)
      (fun _ t => convertibleValue (s.convertible isStorable) value = true ∧ Opens isStorable s t)
      (fun _ _ => convertibleValue (s.convertible isStorable) value = false) s := by
  have hleaves : ∀ leaves : List (Leaf HostCap), ∀ s, Idle m s →
      Wp (leaves.mapM (hostLeafToGuest isStorable))
        (fun _ t => convertibleValue (s.convertible isStorable) ⟨"", leaves⟩ = true ∧
          Opens isStorable s t)
        (fun _ _ => convertibleValue (s.convertible isStorable) ⟨"", leaves⟩ = false) s := by
    intro leaves
    induction leaves with
    | nil => exact fun s hs => ⟨rfl, hs.orderly.opens⟩
    | cons leaf leaves ih =>
      intro s hs
      simp only [List.mapM_cons, wp_bind]
      cases leaf with
      | error name =>
        apply wp_mono (ih s hs)
        · exact fun _ _ hq => hq
        · exact fun _ _ he => he
      | cap h =>
        simp only [hostLeafToGuest, wp_map]
        apply wp_mono (hs.hostCapToGuest_spec h)
        · rintro g t ⟨hconvertible, hst, -⟩
          have hcons : convertibleValue (s.convertible isStorable) ⟨"", .cap h :: leaves⟩ =
              convertibleValue (t.convertible isStorable) ⟨"", leaves⟩ := by
            rw [funext hst.convertible]
            simp [convertibleValue, HostValue.caps, hconvertible]
          rw [hcons]
          apply wp_mono (ih t (hst.idle hs))
          · rintro _ u ⟨hvalue, htu⟩
            exact ⟨hvalue, hst.trans htu⟩
          · exact fun _ _ he => he
        · intro _ t hrefused
          simp [convertibleValue, HostValue.caps, hrefused]
  unfold hostToGuest
  rw [wp_bind]
  exact hleaves value.leaves s hs

theorem Opens.rest (h : Opens isStorable s t) : t.rest = s.rest := by
  rw [h.converts.frame]
  rfl

/-- One settlement was replayed. -/
structure Replayed (isStorable : HostCap → Bool) (m : Nat) (hostVow : VowId) (s t : Flow) :
    Prop where
  idle : Idle m t
  convertible : ∀ h, t.convertible isStorable h = s.convertible isStorable h
  closed : t.closed = Function.update s.closed hostVow true
  rest : t.rest = s.rest

theorem Opens.settled {u : Flow} {g : GuestCap} {hostVow : VowId} (hsu : Opens isStorable s u)
    (hu : Idle m u) (hg : u.h2g.lookup (.vow hostVow) = some g) :
    Replayed isStorable m hostVow s (u.withSettled g) where
  idle := {
    orderly := hu.orderly.withSettled hg
    membrane := by
      obtain ⟨membrane, hm, hid, hstack⟩ := hu.membrane
      exact ⟨_, congrArg (Option.map _) hm, hid, hstack⟩ }
  convertible := hsu.convertible
  closed := by
    obtain ⟨membrane, hm, -⟩ := hu.membrane
    funext v
    rw [← funext hsu.closed]
    by_cases hv : v = hostVow
    · subst hv
      simp [Flow.closed, Flow.withSettled, hg, hm]
    · rw [Function.update_of_ne hv]
      cases hlookup : u.h2g.lookup (.vow v) with
      | none => simp [Flow.closed, Flow.withSettled, hlookup]
      | some g' =>
        have hne : g' ≠ g := by
          rintro rfl
          exact hv (HostCap.vow.inj (hu.orderly.injective _ _ _ hlookup hg))
        simp [Flow.closed, Flow.withSettled, hlookup, hm, hne]
  rest := hsu.rest

/-- Can the settlement be replayed? -/
def Flow.canSettle (isStorable : HostCap → Bool) (flow : Flow) (hostVow : VowId)
    (value : HostValue) : Bool :=
  flow.convertible isStorable (.vow hostVow) && !flow.closed hostVow &&
    convertibleValue (flow.convertible isStorable) value

theorem Idle.settleGuestPromise_spec (hs : Idle m s) (hostVow : VowId) (value : HostValue) :
    Wp (settleGuestPromise isStorable hostVow value)
      (fun _ t => s.canSettle isStorable hostVow value = true ∧
        Replayed isStorable m hostVow s t)
      (fun _ _ => s.canSettle isStorable hostVow value = false) s := by
  unfold settleGuestPromise
  rw [wp_bind]
  apply wp_mono (hs.hostCapToGuest_spec (.vow hostVow))
  · rintro g t ⟨hconvertible, hst, hg⟩
    have hclosed : s.closed hostVow =
        decide ((t.membrane.bind fun membrane => membrane.guestPromiseMap.lookup g) ≠
          some .unresolved) := by
      rw [← hst.closed, Flow.closed, hg]
    rw [wp_bind, wp_get]
    apply wp_ite
    · intro hopen
      rw [wp_bind]
      apply wp_mono ((hst.idle hs).hostToGuest_spec value)
      · rintro _ u ⟨hvalue, htu⟩
        refine ⟨?_, (hst.trans htu).settled (htu.idle (hst.idle hs)) (htu.converts.h2g _ _ hg)⟩
        rw [funext hst.convertible] at hvalue
        simp [Flow.canSettle, hconvertible, hclosed, hopen, hvalue]
      · intro _ u hvalue
        rw [funext hst.convertible] at hvalue
        simp [Flow.canSettle, hvalue]
    · intro hsettled
      simp [Flow.canSettle, hclosed, hsettled]
  · intro _ t hrefused
    simp [Flow.canSettle, hrefused]

theorem Idle.interpretTop_spec (hs : Idle m s) (hostVow : VowId) (value : HostValue)
    {entry : LogEntry}
    (hentry : entry = .doFulfill hostVow value ∨ entry = .doReject hostVow value) :
    Wp (interpretTop isStorable entry)
      (fun _ t => s.canSettle isStorable hostVow value = true ∧
        Replayed isStorable m hostVow s t)
      (fun _ _ => s.canSettle isStorable hostVow value = false) s := by
  have hdispatch : topDispatch isStorable entry = settleGuestPromise isStorable hostVow value := by
    rcases hentry with rfl | rfl <;> rfl
  rw [interpretTop, hdispatch]
  unfold orPanic
  rw [wp_bind, wp_attempt]
  apply wp_mono (hs.settleGuestPromise_spec hostVow value)
  · exact fun _ _ hq => hq
  · intro problem t hrefused
    apply wp_mono (panic_spec problem)
    · exact fun _ _ hq => hq
    · exact fun _ _ _ => hrefused

theorem replays_settlement {entry : LogEntry} {rest : List LogEntry} {hostVow : VowId}
    {value : HostValue} (hrest : s.rest = entry :: rest)
    (hentry : entry = .doFulfill hostVow value ∨ entry = .doReject hostVow value) :
    s.replays isStorable = (s.canSettle isStorable hostVow value &&
      settlementsReplay (s.convertible isStorable) (Function.update s.closed hostVow true) rest) := by
  unfold Flow.replays
  rw [hrest]
  rcases hentry with rfl | rfl <;> rfl

theorem Idle.advanced {entry : LogEntry} (hs : Idle m s) : Idle m (s.advanced entry) :=
  ⟨hs.orderly.of_caps rfl, hs.membrane⟩

/-- A wake of a membrane throws just when the settlements at the cursor cannot be
replayed. -/
theorem Idle.wakeLoop_spec {fuel : Nat} (hs : Idle m s) (hfuel : s.rest.length ≤ fuel) :
    Wp (wakeLoop isStorable m fuel) (fun _ _ => s.replays isStorable = true)
      (fun _ _ => s.replays isStorable = false) s := by
  have hdone : s.rest = [] → s.replays isStorable = true := by
    intro hrest
    rw [Flow.replays, hrest]
    rfl
  induction fuel generalizing s with
  | zero => exact hdone (List.length_eq_zero_iff.mp (Nat.le_zero.mp hfuel))
  | succ fuel ih =>
    obtain ⟨membrane, hm, hid, hstack⟩ := hs.membrane
    unfold wakeLoop
    rw [wp_bind, wp_get, hm]
    apply wp_ite
    · rintro ⟨hreplaying, -⟩
      obtain ⟨entry, rest, hrest⟩ := rest_cons hreplaying
      have hlength : rest.length ≤ fuel := by
        rw [hrest, List.length_cons] at hfuel
        omega
      have hnext := advanced_rest hrest
      apply wp_ite
      · intro _
        rw [wp_bind, wp_of_run (peekEntry_run hrest)]
        have hsettlement : ∀ hostVow value,
            entry = .doFulfill hostVow value ∨ entry = .doReject hostVow value →
            Wp (interpretTop isStorable entry >>= fun _ => wakeLoop isStorable m fuel)
              (fun _ _ => s.replays isStorable = true) (fun _ _ => s.replays isStorable = false)
              (s.advanced entry) := by
          intro hostVow value hentry
          rw [replays_settlement hrest hentry, wp_bind]
          apply wp_mono (hs.advanced.interpretTop_spec hostVow value hentry)
          · rintro _ t ⟨hcan, ht⟩
            have hsame : t.replays isStorable =
                settlementsReplay (s.convertible isStorable)
                  (Function.update s.closed hostVow true) rest := by
              rw [Flow.replays, funext ht.convertible, ht.closed, ht.rest, hnext]
              rfl
            have hcan' : s.canSettle isStorable hostVow value = true := hcan
            rw [hcan', Bool.true_and, ← hsame]
            apply ih ht.idle
            · rw [ht.rest, hnext]
              exact hlength
            · intro htrest
              rw [Flow.replays, htrest]
              rfl
          · intro _ t hrefused
            have hrefused' : s.canSettle isStorable hostVow value = false := hrefused
            rw [hrefused', Bool.false_and]
        apply wp_ite
        · intro htop
          rw [wp_bind, wp_of_run (nextUnfilteredEntry_run hrest)]
          cases entry with
          | startGeneration generation =>
            have hsame : (s.advanced (.startGeneration generation)).replays isStorable =
                s.replays isStorable := by
              rw [Flow.replays, Flow.replays, hrest, hnext]
              rfl
            rw [← hsame]
            apply ih hs.advanced
            · rw [hnext]
              exact hlength
            · intro hrest'
              rw [Flow.replays, hrest']
              rfl
          | doFulfill hostVow value => exact hsettlement hostVow value (Or.inl rfl)
          | doReject hostVow value => exact hsettlement hostVow value (Or.inr rfl)
          | doReturn | doThrow | checkCall => cases htop
        · intro htop
          show s.replays isStorable = true
          rw [Flow.replays, hrest]
          cases entry with
          | startGeneration | doFulfill | doReject => exact absurd rfl htop
          | doReturn | doThrow | checkCall => rfl
      · exact fun hbusy => absurd hstack hbusy
    · intro hidle
      apply hdone
      apply rest_of_not_replaying
      rw [Bool.eq_false_iff]
      exact fun hreplaying => hidle ⟨hreplaying, hid⟩

theorem Idle.membraneWake_spec (hs : Idle m s) :
    Wp (membraneWake isStorable m) (fun _ _ => s.replays isStorable = true)
      (fun _ _ => s.replays isStorable = false) s := by
  unfold membraneWake
  rw [wp_bind, wp_get]
  apply hs.wakeLoop_spec
  rw [Flow.rest, List.length_drop]
  omega

end Openings

section Restarts

variable {isStorable : HostCap → Bool} {s t : Flow}

theorem getFlowState_done (hdone : s.isDone = true) :
    Wp getFlowState (fun flowState _ => flowState = .done) (fun _ _ => True) s := by
  unfold getFlowState
  rw [wp_bind, wp_get, if_pos hdone]
  repeat' first
    | exact rfl
    | exact trivial
    | apply wp_ite <;> intro _

/-- The states of a flow that is not done. -/
inductive Underway (s : Flow) : FlowState → Prop
  | failed (h : s.failure.isSome = true) : Underway s .failed
  | asleep (hfailure : s.failure = none) (hmembrane : s.membrane = none)
      (hindex : s.eph.index = 0) : Underway s .sleeping
  | replaying (hfailure : s.failure = none) (hmembrane : s.membrane.isSome = true)
      (h : s.isReplaying = true) : Underway s .replaying
  | running (hfailure : s.failure = none) (hmembrane : s.membrane.isSome = true)
      (h : s.isReplaying = false) : Underway s .running

theorem getFlowState_underway (hdone : s.isDone = false) :
    Wp getFlowState (fun flowState t => s = t ∧ Underway s flowState)
      (fun _ t => s = t ∧ s.failure = none ∧ s.membrane = none ∧ s.eph.index ≠ 0) s := by
  unfold getFlowState
  rw [wp_bind, wp_get, hdone, if_neg Bool.false_ne_true]
  apply wp_ite
  · exact fun hfailed => ⟨rfl, .failed hfailed⟩
  · intro hfailure
    replace hfailure := Option.not_isSome_iff_eq_none.mp hfailure
    apply wp_ite
    · intro hmembrane
      replace hmembrane := Option.isNone_iff_eq_none.mp hmembrane
      apply wp_ite
      · exact fun hindex => ⟨rfl, .asleep hfailure hmembrane hindex⟩
      · exact fun hindex => ⟨rfl, hfailure, hmembrane, hindex⟩
    · intro hmembrane
      have hsome : s.membrane.isSome = true := by
        rw [Option.isSome_iff_ne_none]
        exact fun hnone => hmembrane (Option.isNone_iff_eq_none.mpr hnone)
      apply wp_ite
      · exact fun h => ⟨rfl, .replaying hfailure hsome h⟩
      · exact fun h => ⟨rfl, .running hfailure hsome (Bool.eq_false_iff.mpr h)⟩

/-- A flow whose membrane is new. -/
def Flow.restarted (s : Flow) (eager : Bool) : Flow :=
  { s with
    failure := none
    eph := reinitLog s.generation s.mapStore
    g2h := ∅
    h2g := ∅
    eagerWaker := eager
    nextMembrane := s.nextMembrane + 1
    membrane := some ⟨s.nextMembrane, ∅, [], false, [], none⟩ }

theorem idle_restarted (s : Flow) (eager : Bool) : Idle s.nextMembrane (s.restarted eager) where
  orderly := by
    apply Orderly.of_empty rfl rfl
    intro membrane hm
    cases hm
    exact ⟨rfl, rfl⟩
  membrane := ⟨_, rfl, rfl, rfl⟩

theorem replays_restarted (s : Flow) (eager : Bool) : (s.restarted eager).replays isStorable =
    settlementsReplay (isConvertible isStorable) (fun _ => false) s.mapStore := by
  have hclosed : (s.restarted eager).closed = fun _ => false := rfl
  have hconvertible : (s.restarted eager).convertible isStorable = isConvertible isStorable := rfl
  rw [Flow.replays, hclosed, hconvertible]
  rfl

theorem Opens.replays (h : Opens isStorable s t) :
    t.replays isStorable = s.replays isStorable := by
  rw [Flow.replays, Flow.replays, funext h.convertible, funext h.closed, h.rest]

theorem startFault_of_awake {eager : Bool} (hdone : s.isDone = false)
    (hfit : ¬ (s.failure = none ∧ s.membrane = none ∧ s.eph.index ≠ 0))
    (harguments : convertibleValue (isConvertible isStorable) s.activationArgs = true)
    (hreplays : (s.restarted eager).replays isStorable = true) : ¬ StartFault isStorable s := by
  intro hfault
  cases hfault with
  | done h =>
    rw [hdone] at h
    cases h
  | astray hfailure hmembrane hindex => exact hfit ⟨hfailure, hmembrane, hindex⟩
  | arguments h =>
    rw [harguments] at h
    cases h
  | settlements h =>
    rw [replays_restarted, h] at hreplays
    cases hreplays

theorem restartGuest_faults (eager : Bool) :
    Wp (restartGuest isStorable eager)
      (fun _ t => ¬ StartFault isStorable s ∧ Kept (s.restarted eager) t ∧ s.isDone = false)
      (fun _ _ => StartFault isStorable s) s := by
  unfold restartGuest
  rw [wp_bind]
  cases hdone : s.isDone with
  | true =>
    apply wp_mono (getFlowState_done hdone)
    · rintro _ _ rfl
      exact .done hdone
    · exact fun _ _ _ => .done hdone
  | false =>
    apply wp_mono (getFlowState_underway hdone)
    · rintro startFlowState _ ⟨rfl, hunderway⟩
      have hfit : ¬ (s.failure = none ∧ s.membrane = none ∧ s.eph.index ≠ 0) := by
        rintro ⟨hfailure, hmembrane, hindex⟩
        cases hunderway with
        | failed h =>
          rw [hfailure] at h
          cases h
        | asleep _ _ h => exact hindex h
        | replaying _ h | running _ h =>
          rw [hmembrane] at h
          cases h
      apply wp_ite
      · rintro rfl
        cases hunderway
      · intro _
        have hopen : ¬ s.isDone = true := by
          rw [hdone]
          exact Bool.false_ne_true
        simp only [adminReset, dropMembrane, logReset, bijectionReset, makeReplayMembrane, wp_bind,
          wp_get, if_neg hopen, wp_modify, wp_pure]
        have hidle := idle_restarted s eager
        apply wp_mono (wp_and (hidle.hostToGuest_spec s.activationArgs)
          (wp_of_moves Keeps (hostToGuest isStorable s.activationArgs) (s.restarted eager)))
        · rintro guestArgs t ⟨⟨harguments, hopens⟩, hkept⟩
          replace hkept := hkept hidle.orderly
          have htdone : t.isDone = false := hkept.isDone.trans hdone
          have htfailure : t.failure = none := by
            rw [hopens.converts.frame]
            rfl
          have htmanned := hkept.manned (fun _ => rfl) htfailure
          have hreplays := hopens.replays
          apply wp_mono (getFlowState_underway htdone)
          · rintro flowState _ ⟨rfl, hstate⟩
            apply wp_ite
            · intro _
              rw [wp_bind]
              apply wp_mono (wp_and (hopens.idle hidle).membraneWake_spec
                (wp_of_moves Keeps (membraneWake isStorable s.nextMembrane) t))
              · rintro _ u ⟨hwoken, hlater⟩
                rw [hreplays] at hwoken
                exact ⟨startFault_of_awake hdone hfit harguments hwoken,
                  hkept.trans (hlater hkept.orderly), trivial⟩
              · rintro _ u ⟨hstuck, -⟩
                rw [hreplays, replays_restarted] at hstuck
                exact .settlements hstuck
            · intro hstray
              cases hstate with
              | failed h =>
                rw [htfailure] at h
                cases h
              | asleep _ h _ =>
                rw [h] at htmanned
                cases htmanned
              | replaying => exact absurd (Or.inr rfl) hstray
              | running => exact absurd (Or.inl rfl) hstray
          · rintro _ _ ⟨rfl, -, hgone, -⟩
            rw [hgone] at htmanned
            cases htmanned
        · rintro _ t ⟨hrefused, -⟩
          exact .arguments hrefused
    · rintro _ _ ⟨rfl, hfailure, hmembrane, hindex⟩
      exact .astray hfailure hmembrane hindex

theorem runGuest_spec (m : Nat) (turn : GuestTurn) :
    Wp (runGuest isStorable m turn) (fun _ _ => True) (fun _ _ => False) s := by
  induction turn generalizing s with
  | finished => trivial
  | call guestTarget optVerb guestArgs reply next ih =>
    unfold runGuest guestMethod
    simp only [wp_bind, wp_get, wp_attempt, wp_modify, wp_pure]
    apply wp_of_forall
    · exact fun _ _ => ih _
    · exact fun _ _ => ih _

theorem registerGuestResult_faults (hs : Orderly s) (hmanned : s.manned)
    (hdone : s.isDone = false) :
    Wp registerGuestResult
      (fun _ _ => ¬ (s.failure = none ∧ s.h2g.has (.vow s.outcomeVow) = true))
      (fun _ _ => s.failure = none ∧ s.h2g.has (.vow s.outcomeVow) = true) s := by
  unfold registerGuestResult
  rw [wp_bind]
  apply wp_mono (getFlowState_underway hdone)
  · rintro flowState _ ⟨rfl, hstate⟩
    apply wp_ite
    · intro hok
      have hfailure : s.failure = none := by
        cases hstate with
        | failed => exact absurd rfl hok
        | asleep h | replaying h | running h => exact h
      rw [wp_bind, wp_get, wp_bind, wp_modify, wp_bind]
      apply wp_mono hs.registerResult_spec
      · rintro _ t ⟨hunknown, -⟩
        show ¬ (s.failure = none ∧ s.h2g.has (.vow s.outcomeVow) = true)
        rintro ⟨-, hknown⟩
        rw [hunknown] at hknown
        cases hknown
      · rintro _ t ⟨hknown, -⟩
        exact ⟨hfailure, hknown⟩
    · intro hfailed
      rintro ⟨hfailure, -⟩
      cases hstate with
      | failed h =>
        rw [hfailure] at h
        cases h
      | asleep | replaying | running => exact hfailed fun h => by cases h
  · rintro _ _ ⟨rfl, hfailure, hgone, -⟩
    have hsome := hmanned hfailure
    rw [hgone] at hsome
    cases hsome

theorem restart_faults (eager : Bool) (guestAsyncFunc : GuestValue → GuestTurn) :
    Wp (AsyncFlow.restart isStorable eager guestAsyncFunc)
      (fun _ _ => ¬ RestartFault isStorable s eager guestAsyncFunc)
      (fun _ _ => RestartFault isStorable s eager guestAsyncFunc) s := by
  have hspec : Wp (restartGuest isStorable eager)
      (fun _ t => ¬ StartFault isStorable s ∧ Kept (s.restarted eager) t ∧ s.isDone = false)
      (fun _ _ => StartFault isStorable s) s := restartGuest_faults eager
  unfold AsyncFlow.restart
  rw [wp_bind]
  cases hstart : restartGuest isStorable eager s with
  | error problem t =>
    have hfault := wp_of_error hspec hstart
    unfold Wp
    rw [hstart]
    exact .start hfault
  | ok begun t =>
    obtain ⟨m, guestArgs⟩ := begun
    obtain ⟨hgood, hkept, hdone⟩ := wp_of_ok hspec hstart
    rw [wp_of_run hstart]
    have hafter : s.afterFirstTurn isStorable eager guestAsyncFunc =
        finalState (runGuest isStorable m (guestAsyncFunc guestArgs)) t := by
      rw [Flow.afterFirstTurn, hstart]
    have hlater : Keeps t (finalState (runGuest isStorable m (guestAsyncFunc guestArgs)) t) :=
      Moves.rel t
    have hturn : Wp (runGuest isStorable m (guestAsyncFunc guestArgs)) (fun _ _ => True)
      (fun _ _ => False) t := runGuest_spec m _
    dsimp only
    rw [wp_bind]
    cases hrun : runGuest isStorable m (guestAsyncFunc guestArgs) t with
    | error problem u => exact (wp_of_error hturn hrun).elim
    | ok _ u =>
      rw [wp_of_run hrun]
      have hfinal : finalState (runGuest isStorable m (guestAsyncFunc guestArgs)) t = u := by
        rw [finalState, hrun]
      rw [hfinal] at hlater hafter
      have hu := hkept.trans (hlater hkept.orderly)
      have hmanned : u.manned := hu.manned fun _ => rfl
      have hvow : u.outcomeVow = s.outcomeVow := hu.outcomeVow
      apply wp_mono (registerGuestResult_faults hu.orderly hmanned (hu.isDone.trans hdone))
      · intro _ _ hunknown hfault
        cases hfault with
        | start h => exact hgood h
        | outcome _ hfailure hknown =>
          rw [hafter] at hfailure hknown
          rw [hvow] at hunknown
          exact hunknown ⟨hfailure, hknown⟩
      · rintro _ _ ⟨hfailure, hknown⟩
        rw [hvow] at hknown
        rw [← hafter] at hfailure hknown
        exact .outcome hgood hfailure hknown

theorem not_wakeFault {flowState : FlowState} {startEager : Bool}
    {guestAsyncFunc : GuestValue → GuestTurn} (h : getFlowState s = .ok flowState s)
    (hasleep : flowState = .sleeping → ¬ RestartFault isStorable s startEager guestAsyncFunc)
    (hreplaying : flowState = .replaying → ∀ membrane, s.membrane = some membrane →
      membrane.callStack = [] ∧ s.replays isStorable = true) :
    ¬ WakeFault isStorable s startEager guestAsyncFunc := by
  intro hfault
  cases hfault with
  | astray hastray => exact hastray flowState h
  | asleep h' hrestart =>
    rw [h] at h'
    cases h'
    exact hasleep rfl hrestart
  | replaying h' hm hreplay =>
    rw [h] at h'
    cases h'
    obtain ⟨hstack, hreplays⟩ := hreplaying rfl _ hm
    rcases hreplay with hbusy | hstuck
    · exact hbusy hstack
    · rw [hreplays] at hstuck
      cases hstuck

theorem membraneWake_faults (hs : Orderly s) {membrane : Membrane}
    (hm : s.membrane = some membrane) :
    Wp (membraneWake isStorable membrane.id)
      (fun _ _ => s.isReplaying = true → membrane.callStack = [] ∧ s.replays isStorable = true)
      (fun _ _ => s.isReplaying = true ∧
        (membrane.callStack ≠ [] ∨ s.replays isStorable = false)) s := by
  unfold membraneWake
  rw [wp_bind, wp_get]
  cases hreplaying : s.isReplaying with
  | false =>
    cases hlength : s.mapStore.length with
    | zero => exact fun h => nomatch h
    | succ fuel =>
      unfold wakeLoop
      rw [wp_bind, wp_get, hm]
      apply wp_ite
      · rintro ⟨h, -⟩
        rw [hreplaying] at h
        cases h
      · exact fun _ h => nomatch h
  | true =>
    have hlt := isReplaying_iff.mp hreplaying
    by_cases hstack : membrane.callStack = []
    · have hidle : Idle membrane.id s := ⟨hs, membrane, hm, rfl, hstack⟩
      apply wp_mono (hidle.wakeLoop_spec ?_)
      · exact fun _ _ hreplays _ => ⟨hstack, hreplays⟩
      · exact fun _ _ hstuck => ⟨rfl, Or.inr hstuck⟩
      · rw [Flow.rest, List.length_drop]
        omega
    · obtain ⟨fuel, hlength⟩ := Nat.exists_eq_succ_of_ne_zero (Nat.ne_of_gt (Nat.zero_lt_of_lt hlt))
      rw [hlength]
      unfold wakeLoop
      rw [wp_bind, wp_get, hm]
      apply wp_ite
      · intro _
        apply wp_ite
        · exact fun h => absurd h hstack
        · exact fun _ => ⟨rfl, Or.inl hstack⟩
      · exact fun h => absurd ⟨hreplaying, rfl⟩ h

theorem underway_of_state {flowState : FlowState} (h : getFlowState s = .ok flowState s)
    (hdone : flowState ≠ .done) : Underway s flowState := by
  cases hs : s.isDone with
  | true =>
    have hspec : Wp getFlowState (fun flowState _ => flowState = .done) (fun _ _ => True) s :=
      getFlowState_done hs
    exact absurd (wp_of_ok hspec h) hdone
  | false =>
    have hspec := getFlowState_underway hs
    exact (wp_of_ok hspec h).2

theorem wake_faults (hs : Orderly s) (startEager : Bool)
    (guestAsyncFunc : GuestValue → GuestTurn) :
    Wp (AsyncFlow.wake isStorable startEager guestAsyncFunc)
      (fun _ _ => ¬ WakeFault isStorable s startEager guestAsyncFunc)
      (fun _ _ => WakeFault isStorable s startEager guestAsyncFunc) s := by
  unfold AsyncFlow.wake
  rw [wp_bind]
  cases hstate : getFlowState s with
  | error problem t =>
    unfold Wp
    rw [hstate]
    apply WakeFault.astray
    intro flowState h
    rw [hstate] at h
    cases h
  | ok flowState t =>
    obtain rfl : s = t := by
      have hspec : Wp getFlowState (fun _ t => t = s) (fun _ t => t = s) s := getFlowState_spec
      exact (wp_of_ok hspec hstate).symm
    rw [wp_of_run hstate]
    cases flowState with
    | done | failed => exact not_wakeFault hstate (fun h => nomatch h) fun h => nomatch h
    | sleeping =>
      apply wp_mono (restart_faults startEager guestAsyncFunc)
      · exact fun _ _ hgood => not_wakeFault hstate (fun _ => hgood) fun h => nomatch h
      · exact fun _ _ hfault => .asleep hstate hfault
    | running =>
      cases underway_of_state hstate nofun with
      | running hfailure hmembrane hreplaying =>
      obtain ⟨membrane, hm⟩ := Option.isSome_iff_exists.mp hmembrane
      dsimp only
      rw [wp_bind, wp_get, hm]
      apply wp_mono (membraneWake_faults hs hm)
      · exact fun _ _ _ => not_wakeFault hstate (fun h => nomatch h) fun h => nomatch h
      · rintro _ _ ⟨h, -⟩
        rw [hreplaying] at h
        cases h
    | replaying =>
      cases underway_of_state hstate nofun with
      | replaying hfailure hmembrane hreplaying =>
      obtain ⟨membrane, hm⟩ := Option.isSome_iff_exists.mp hmembrane
      dsimp only
      rw [wp_bind, wp_get, hm]
      apply wp_mono (membraneWake_faults hs hm)
      · intro _ _ hgood
        apply not_wakeFault hstate (fun h => nomatch h)
        intro _ membrane' hm'
        rw [hm] at hm'
        cases hm'
        exact hgood hreplaying
      · exact fun _ _ ⟨_, hreplay⟩ => .replaying hstate hm hreplay

end Restarts

section Calls

variable (isStorable : HostCap → Bool) (startEager : FlowId → Bool)
  (guestAsyncFunc : FlowId → GuestValue → GuestTurn)

/-- Why a call on a flow throws. -/
def AdminCall.Fault (call : AdminCall) (flow : Flow) : Prop :=
  match call with
  | .restart id => RestartFault isStorable flow (startEager id) (guestAsyncFunc id)
  | .wake id => WakeFault isStorable flow (startEager id) (guestAsyncFunc id)

/-- The flow as calls on it leave it, one after the other. -/
def flowAfter : List AdminCall → FlowId → Flow → Flow
  | [], _, flow => flow
  | call :: calls, id, flow =>
    flowAfter calls id
      (if call.flow = id then finalState (call.method isStorable startEager guestAsyncFunc) flow
      else flow)

/-- The keys of the two stores. -/
structure Keys (w : AsyncFlows) (failuresToRestart flowsToWake : List FlowId) : Prop where
  failures : ∀ id, id ∈ failuresToRestart ↔ (w.flows id).failure ≠ none
  wakers : ∀ id, id ∈ flowsToWake ↔ (w.flows id).eagerWaker = true
  distinct : failuresToRestart.Nodup ∧ flowsToWake.Nodup

/-- All flows that failed were restarted, and all eager wakers were woken. -/
structure AllCalled (w w' : AsyncFlows) : Prop where
  restarted : ∀ id, (w.flows id).failure ≠ none → .restart id ∈ w'.called
  woken : ∀ id, (w.flows id).eagerWaker = true → .wake id ∈ w'.called

variable {isStorable startEager guestAsyncFunc} {w : AsyncFlows}

theorem wakeAll_eq (failuresToRestart flowsToWake : List FlowId) :
    wakeAll isStorable startEager guestAsyncFunc failuresToRestart flowsToWake =
      (wakeAllCalls failuresToRestart flowsToWake).forM
        (AdminCall.run isStorable startEager guestAsyncFunc) := by
  unfold wakeAll wakeAllCalls
  simp only [List.forM_eq_forM, List.forM_append, List.forM_map]

theorem AdminCall.method_orders (call : AdminCall) :
    Moves Orders (call.method isStorable startEager guestAsyncFunc) := by
  cases call with
  | restart id =>
    exact inferInstanceAs (Moves Orders
      (AsyncFlow.restart isStorable (startEager id) (guestAsyncFunc id)))
  | wake id =>
    exact inferInstanceAs (Moves Orders
      (AsyncFlow.wake isStorable (startEager id) (guestAsyncFunc id)))

theorem AdminCall.method_faults (call : AdminCall) {flow : Flow} (h : Orderly flow) :
    Wp (call.method isStorable startEager guestAsyncFunc)
      (fun _ _ => ¬ call.Fault isStorable startEager guestAsyncFunc flow)
      (fun _ _ => call.Fault isStorable startEager guestAsyncFunc flow) flow := by
  cases call with
  | restart id => exact restart_faults (startEager id) (guestAsyncFunc id)
  | wake id => exact wake_faults h (startEager id) (guestAsyncFunc id)

theorem AdminCall.run_spec (call : AdminCall) (hflows : ∀ id, Orderly (w.flows id)) :
    Wp (call.run isStorable startEager guestAsyncFunc)
      (fun _ w' => ¬ call.Fault isStorable startEager guestAsyncFunc (w.flows call.flow) ∧
        w'.called = w.called ++ [call] ∧
        ∀ id, w'.flows id = flowAfter isStorable startEager guestAsyncFunc [call] id (w.flows id))
      (fun _ w' => call.Fault isStorable startEager guestAsyncFunc (w.flows call.flow) ∧
        w'.called = w.called ++ [call]) w := by
  have hfaults : Wp (call.method isStorable startEager guestAsyncFunc)
      (fun _ _ => ¬ call.Fault isStorable startEager guestAsyncFunc (w.flows call.flow))
      (fun _ _ => call.Fault isStorable startEager guestAsyncFunc (w.flows call.flow))
      (w.flows call.flow) := call.method_faults (hflows call.flow)
  unfold AdminCall.run
  rw [wp_bind, wp_modify]
  unfold Wp onFlow
  cases hrun : call.method isStorable startEager guestAsyncFunc (w.flows call.flow) with
  | error problem flow =>
    have hfault := wp_of_error hfaults hrun
    exact ⟨hfault, rfl⟩
  | ok _ flow =>
    refine ⟨wp_of_ok hfaults hrun, rfl, ?_⟩
    intro id
    by_cases hid : id = call.flow
    · subst hid
      simp [flowAfter, finalState, hrun]
    · simp [flowAfter, hid, Ne.symm hid]

theorem flowAfter_orderly (calls : List AdminCall) {id : FlowId} {flow : Flow} (h : Orderly flow) :
    Orderly (flowAfter isStorable startEager guestAsyncFunc calls id flow) := by
  induction calls generalizing flow with
  | nil => exact h
  | cons call calls ih =>
    rw [flowAfter]
    apply ih
    split
    · exact call.method_orders.rel flow h
    · exact h

variable (isStorable startEager guestAsyncFunc) in
/-- The call at this position throws, made on the flow as the calls before leave it. -/
def FaultAt (w : AsyncFlows) (calls : List AdminCall) (i : Nat) : Prop :=
  ∃ call, calls[i]? = some call ∧ call.Fault isStorable startEager guestAsyncFunc
    (flowAfter isStorable startEager guestAsyncFunc (calls.take i) call.flow (w.flows call.flow))

theorem faultAt_succ {w' : AsyncFlows} {call : AdminCall} {calls : List AdminCall} {i : Nat}
    (h : ∀ id, w'.flows id =
      flowAfter isStorable startEager guestAsyncFunc [call] id (w.flows id)) :
    FaultAt isStorable startEager guestAsyncFunc w (call :: calls) (i + 1) ↔
      FaultAt isStorable startEager guestAsyncFunc w' calls i := by
  unfold FaultAt
  simp only [List.getElem?_cons_succ, List.take_succ_cons, h]
  rfl

theorem calls_spec (calls : List AdminCall) (hflows : ∀ id, Orderly (w.flows id)) :
    Wp (calls.forM (AdminCall.run isStorable startEager guestAsyncFunc))
      (fun _ w' => w'.called = w.called ++ calls ∧
        ∀ i, ¬ FaultAt isStorable startEager guestAsyncFunc w calls i)
      (fun _ w' => ∃ i, FaultAt isStorable startEager guestAsyncFunc w calls i ∧
        (∀ j < i, ¬ FaultAt isStorable startEager guestAsyncFunc w calls j) ∧
        w'.called = w.called ++ calls.take (i + 1)) w := by
  induction calls generalizing w with
  | nil =>
    refine ⟨(List.append_nil _).symm, ?_⟩
    rintro i ⟨call, hcall, -⟩
    cases hcall
  | cons call calls ih =>
    change Wp (call.run isStorable startEager guestAsyncFunc >>= fun _ => calls.forM _) _ _ w
    rw [wp_bind]
    apply wp_mono (call.run_spec hflows)
    · rintro _ w' ⟨hgood, hcalled, hafter⟩
      have hflows' : ∀ id, Orderly (w'.flows id) := by
        intro id
        rw [hafter]
        exact flowAfter_orderly _ (hflows id)
      have hfirst : ¬ FaultAt isStorable startEager guestAsyncFunc w (call :: calls) 0 := by
        rintro ⟨call', hcall', hfault⟩
        cases hcall'
        exact hgood hfault
      apply wp_mono (ih hflows')
      · rintro _ w'' ⟨hcalled', hnone⟩
        refine ⟨?_, ?_⟩
        · rw [hcalled', hcalled, List.append_assoc, List.singleton_append]
        · intro i
          cases i with
          | zero => exact hfirst
          | succ i =>
            rw [faultAt_succ hafter]
            exact hnone i
      · rintro _ w'' ⟨i, hfault, hbefore, hcalled'⟩
        refine ⟨i + 1, (faultAt_succ hafter).mpr hfault, ?_, ?_⟩
        · intro j hj
          cases j with
          | zero => exact hfirst
          | succ j =>
            rw [faultAt_succ hafter]
            exact hbefore j (Nat.lt_of_succ_lt_succ hj)
        · rw [hcalled', hcalled, List.append_assoc, List.singleton_append, List.take_succ_cons]
    · rintro _ w' ⟨hfault, hcalled⟩
      refine ⟨0, ⟨call, rfl, hfault⟩, ?_, hcalled⟩
      exact fun j hj => absurd hj (Nat.not_lt_zero j)

theorem allCalled_iff {w' : AsyncFlows} {failuresToRestart flowsToWake : List FlowId}
    (hkeys : Keys w failuresToRestart flowsToWake) :
    AllCalled w w' ↔ ∀ call ∈ wakeAllCalls failuresToRestart flowsToWake, call ∈ w'.called := by
  constructor
  · rintro hall call hcall
    rcases List.mem_append.mp hcall with hmem | hmem
    · obtain ⟨id, hid, rfl⟩ := List.mem_map.mp hmem
      exact hall.restarted id ((hkeys.failures id).mp hid)
    · obtain ⟨id, hid, rfl⟩ := List.mem_map.mp hmem
      exact hall.woken id ((hkeys.wakers id).mp hid)
  · intro hall
    constructor
    · intro id hid
      apply hall
      exact List.mem_append_left _ (List.mem_map_of_mem ((hkeys.failures id).mpr hid))
    · intro id hid
      apply hall
      exact List.mem_append_right _ (List.mem_map_of_mem ((hkeys.wakers id).mpr hid))

theorem Keys.nodup {failuresToRestart flowsToWake : List FlowId}
    (hkeys : Keys w failuresToRestart flowsToWake) :
    (wakeAllCalls failuresToRestart flowsToWake).Nodup := by
  unfold wakeAllCalls
  apply List.Nodup.append
  · exact hkeys.distinct.1.map fun _ _ h => AdminCall.restart.inj h
  · exact hkeys.distinct.2.map fun _ _ h => AdminCall.wake.inj h
  · intro call hrestart hwake
    obtain ⟨_, _, rfl⟩ := List.mem_map.mp hrestart
    obtain ⟨_, _, h⟩ := List.mem_map.mp hwake
    cases h

/-- `wakeAll` restarts all flows that failed and wakes all eager wakers just when no
call but the last throws. -/
theorem wakeAll_reaches_all_iff {failuresToRestart flowsToWake : List FlowId}
    (hflows : ∀ id, (flowSystem isStorable).Reachable TransitionSystem.anyStep (w.flows id))
    (hcalled : w.called = []) (hkeys : Keys w failuresToRestart flowsToWake) :
    AllCalled w (finalState (wakeAll isStorable startEager guestAsyncFunc
        failuresToRestart flowsToWake) w) ↔
      ∀ i, i + 1 < (wakeAllCalls failuresToRestart flowsToWake).length →
        ¬ FaultAt isStorable startEager guestAsyncFunc w
          (wakeAllCalls failuresToRestart flowsToWake) i := by
  have horderly : ∀ id, Orderly (w.flows id) := fun id => orderly_reachable (hflows id)
  rw [allCalled_iff hkeys, wakeAll_eq]
  have hnodup := hkeys.nodup
  generalize wakeAllCalls failuresToRestart flowsToWake = calls at hnodup ⊢
  apply finalState_of_wp (P := fun w' : AsyncFlows => (∀ call ∈ calls, call ∈ w'.called) ↔
    ∀ i, i + 1 < calls.length → ¬ FaultAt isStorable startEager guestAsyncFunc w calls i)
  apply wp_mono (calls_spec calls horderly)
  · rintro _ w' ⟨hall, hnone⟩
    rw [hcalled, List.nil_append] at hall
    rw [hall]
    exact ⟨fun _ i _ => hnone i, fun _ _ h => h⟩
  · rintro _ w' ⟨i, hfault, hbefore, hall⟩
    rw [hcalled, List.nil_append] at hall
    rw [hall]
    constructor
    · intro hmade j hj hfault'
      have hij : i ≤ j := by
        by_contra hlt
        exact hbefore j (Nat.lt_of_not_le hlt) hfault'
      have hnext : i + 1 < calls.length := by omega
      have hmem := hmade _ (List.getElem_mem hnext)
      obtain ⟨k, hk, heq⟩ := List.mem_take_iff_getElem.mp hmem
      have := (List.Nodup.getElem_inj_iff hnodup).mp heq
      omega
    · intro hgood call hcall
      have hlast : calls.length ≤ i + 1 := by
        by_contra hlt
        exact hgood i (Nat.lt_of_not_le hlt) hfault
      rw [List.take_of_length_le hlast]
      exact hcall

/-- An activation with a host vow for its argument. -/
def vowFlow : Flow := { callerFlow with activationArgs := ⟨"", [.cap (.vow 7)]⟩ }

/-- The vow is fulfilled with a host function, which is not passable: the flow panics. -/
def hostFunctionRun : List FlowEvent :=
  [.restart true, .guestReturns, .vowSettled 0 0 (.fulfilled ⟨"", [.cap (.farFunction 3)]⟩)]

/-- The guest sends eventually, and the flow panics. -/
def eventualSendRun : List FlowEvent := [.restart true, .guestReturns, .guestSends 0]

def idleGuest : FlowId → GuestValue → GuestTurn := fun _ _ => .finished

def ranFrom (flow : Flow) (events : List FlowEvent) : Flow :=
  (((flowSystem allDurable).runWhile TransitionSystem.anyStep flow events).getD flow)

/-- The given flow has failed, and so has another; no other flow was started. -/
def twoFailures (first : Flow) : AsyncFlows where
  flows := fun id =>
    match id with
    | 0 => first
    | 1 => ranFrom callerFlow eventualSendRun
    | _ => callerFlow
  called := []

theorem ranFrom_reachable {flow : Flow} (h : flow.Initial) (events : List FlowEvent) :
    (flowSystem allDurable).Reachable TransitionSystem.anyStep (ranFrom flow events) := by
  unfold ranFrom
  cases hrun : (flowSystem allDurable).runWhile TransitionSystem.anyStep flow events with
  | none => exact .init h
  | some s => exact .of_runWhile (.init h) hrun

theorem callerFlow_initial : callerFlow.Initial := ⟨rfl, rfl, rfl, rfl, rfl, rfl, rfl, rfl, rfl⟩

theorem vowFlow_initial : vowFlow.Initial := ⟨rfl, rfl, rfl, rfl, rfl, rfl, rfl, rfl, rfl⟩

theorem twoFailures_reachable {first : Flow}
    (h : (flowSystem allDurable).Reachable TransitionSystem.anyStep first) (id : FlowId) :
    (flowSystem allDurable).Reachable TransitionSystem.anyStep ((twoFailures first).flows id) := by
  match id with
  | 0 => exact h
  | 1 => exact ranFrom_reachable callerFlow_initial eventualSendRun
  | _ + 2 => exact .init callerFlow_initial

theorem twoFailures_keys {first : Flow} (hfailure : first.failure.isSome = true)
    (heager : first.eagerWaker = true) : Keys (twoFailures first) [0, 1] [0, 1] where
  failures := fun id => by
    match id with
    | 0 => simpa [twoFailures, Option.isSome_iff_ne_none] using hfailure
    | 1 =>
      have hfailed : (ranFrom callerFlow eventualSendRun).failure.isSome = true := by
        decide +kernel
      simpa [twoFailures, Option.isSome_iff_ne_none] using hfailed
    | id + 2 => simp [twoFailures, callerFlow]
  wakers := fun id => by
    match id with
    | 0 => simpa [twoFailures] using heager
    | 1 =>
      have hwaker : (ranFrom callerFlow eventualSendRun).eagerWaker = true := by decide +kernel
      simpa [twoFailures] using hwaker
    | id + 2 => simp [twoFailures, callerFlow]
  distinct := ⟨by decide, by decide⟩

/-- Two flows that failed in eventual sends are both restarted and woken. -/
theorem two_sends_all_called :
    AllCalled (twoFailures (ranFrom vowFlow eventualSendRun))
        (finalState (wakeAll allDurable (fun _ => true) idleGuest [0, 1] [0, 1])
          (twoFailures (ranFrom vowFlow eventualSendRun))) ∧
      ∀ i, i + 1 < 4 → ¬ FaultAt allDurable (fun _ => true) idleGuest
        (twoFailures (ranFrom vowFlow eventualSendRun)) (wakeAllCalls [0, 1] [0, 1]) i := by
  have hkeys : Keys (twoFailures (ranFrom vowFlow eventualSendRun)) [0, 1] [0, 1] :=
    twoFailures_keys (by decide +kernel) (by decide +kernel)
  have hall : AllCalled (twoFailures (ranFrom vowFlow eventualSendRun))
      (finalState (wakeAll allDurable (fun _ => true) idleGuest [0, 1] [0, 1])
        (twoFailures (ranFrom vowFlow eventualSendRun))) := by
    rw [allCalled_iff hkeys]
    decide +kernel
  have hreachable := twoFailures_reachable (ranFrom_reachable vowFlow_initial eventualSendRun)
  exact ⟨hall, (wakeAll_reaches_all_iff hreachable rfl hkeys).mp hall⟩

/-- A flow whose replay panics keeps the other from being restarted. -/
theorem panicking_replay_ends_wakeAll :
    ∃ w : AsyncFlows,
      (∀ id, (flowSystem allDurable).Reachable TransitionSystem.anyStep (w.flows id)) ∧
      w.called = [] ∧ Keys w [0, 1] [0, 1] ∧
      ¬ AllCalled w (finalState (wakeAll allDurable (fun _ => true) idleGuest [0, 1] [0, 1]) w) := by
  have hfailed : (ranFrom vowFlow hostFunctionRun).failure.isSome = true := by decide +kernel
  have heager : (ranFrom vowFlow hostFunctionRun).eagerWaker = true := by decide +kernel
  refine ⟨twoFailures (ranFrom vowFlow hostFunctionRun),
    twoFailures_reachable (ranFrom_reachable vowFlow_initial _), rfl,
    twoFailures_keys hfailed heager, ?_⟩
  intro hall
  have hother := hall.restarted 1 ((twoFailures_keys hfailed heager).failures 1 |>.mp (by decide))
  revert hother
  decide +kernel

end Calls

end AgoricSdk.AsyncFlow
