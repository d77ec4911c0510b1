import AgoricSdk.AsyncFlow.Conversions

/-!
What holds of the bijection of a flow at any time, whatever its log is: it is
one-to-one, and all guest capabilities in it are older than the next one. Every
function of the flow keeps it. The calls of a guest do not end the flow either, and
they take its membrane away only with a failure.
-/

namespace AgoricSdk.AsyncFlow

open StateProgram

section Orderly

structure Orderly (s : Flow) : Prop where
  coherent : Coherent s
  own : ∀ h k, s.h2g.lookup h = some (.own k) → k < s.nextGuest
  ownKeys : ∀ k, s.g2h.has (.own k) = true → k < s.nextGuest
  injective : ∀ x y g, s.h2g.lookup x = some g → s.h2g.lookup y = some g → x = y

/-- A flow that has not failed has a membrane. -/
def Flow.manned (s : Flow) : Prop := s.failure = none → s.membrane.isSome = true

variable {s t : Flow} {h : HostCap}

theorem wrapped_lookup {x : HostCap} {g : GuestCap} (hx : (s.wrapped h).h2g.lookup x = some g) :
    x = h ∧ g = .wrapper s.nextGuest ∨ x ≠ h ∧ s.h2g.lookup x = some g := by
  simp only [Flow.wrapped, Table.lookup_insert] at hx
  split at hx
  case isTrue heq =>
    cases hx
    exact Or.inl ⟨heq, rfl⟩
  case isFalse hne => exact Or.inr ⟨hne, hx⟩

theorem Orderly.old_ne (hs : Orderly s) {x : HostCap} {g : GuestCap}
    (hx : s.h2g.lookup x = some g) : g ≠ .wrapper s.nextGuest := by
  rintro rfl
  have := hs.coherent.h2g x _ hx
  omega

theorem Orderly.wrapped (hs : Orderly s) (hnone : s.h2g.lookup h = none) :
    Orderly (s.wrapped h) where
  coherent := hs.coherent.wrapped hnone
  own := fun x k hx => by
    rcases wrapped_lookup hx with ⟨-, hg⟩ | ⟨-, hold⟩
    · cases hg
    · exact Nat.lt_succ_of_lt (hs.own x k hold)
  ownKeys := fun k hk => by
    rw [(hs.coherent.wrapped_converts hnone).own k] at hk
    exact Nat.lt_succ_of_lt (hs.ownKeys k hk)
  injective := fun x y g hx hy => by
    rcases wrapped_lookup hx with ⟨rfl, rfl⟩ | ⟨-, hx⟩
    · rcases wrapped_lookup hy with ⟨heq, -⟩ | ⟨-, hy⟩
      · exact heq.symm
      · exact absurd rfl (hs.old_ne hy)
    · rcases wrapped_lookup hy with ⟨-, rfl⟩ | ⟨-, hy⟩
      · exact absurd rfl (hs.old_ne hx)
      · exact hs.injective x y g hx hy

theorem Orderly.promised (hs : Orderly s) : Orderly s.promised where
  coherent := hs.coherent.promised.2
  own := fun x k hx => Nat.lt_succ_of_lt (hs.own x k hx)
  ownKeys := fun k hk => Nat.lt_succ_of_lt (hs.ownKeys k hk)
  injective := hs.injective

/-- The guest promise of a vow is settled. -/
def Flow.withSettled (s : Flow) (g : GuestCap) : Flow :=
  { s with membrane := s.membrane.map fun membrane =>
      { membrane with guestPromiseMap := membrane.guestPromiseMap.insert g .settled } }

theorem Orderly.withSettled {g : GuestCap} (hs : Orderly s) (hg : s.h2g.lookup h = some g) :
    Orderly (s.withSettled g) where
  coherent := {
    h2g := hs.coherent.h2g
    g2h := hs.coherent.g2h
    promises := fun membrane' hm k hk => by
      obtain ⟨membrane, hmembrane, rfl⟩ := Option.map_eq_some_iff.mp hm
      rcases Table.has_insert_iff.mp hk with hkey | hold
      · rw [← hkey] at hg
        exact hs.coherent.h2g _ k hg
      · exact hs.coherent.promises _ hmembrane k hold
    watchers := fun membrane' hm w hw => by
      obtain ⟨membrane, hmembrane, rfl⟩ := Option.map_eq_some_iff.mp hm
      exact hs.coherent.watchers _ hmembrane w hw }
  own := hs.own
  ownKeys := hs.ownKeys
  injective := hs.injective

theorem Orderly.of_empty (hh2g : s.h2g = ∅) (hg2h : s.g2h = ∅)
    (hmembrane : ∀ membrane, s.membrane = some membrane →
      membrane.guestPromiseMap = ∅ ∧ membrane.watchers = []) : Orderly s where
  coherent := {
    h2g := fun x k hx => by
      rw [hh2g] at hx
      cases hx
    g2h := fun k hk => by
      rw [hg2h] at hk
      cases hk
    promises := fun membrane hm k hk => by
      rw [(hmembrane membrane hm).1] at hk
      cases hk
    watchers := fun membrane hm w hw => by
      rw [(hmembrane membrane hm).2] at hw
      cases hw }
  own := fun x k hx => by
    rw [hh2g] at hx
    cases hx
  ownKeys := fun k hk => by
    rw [hg2h] at hk
    cases hk
  injective := fun x y g hx => by
    rw [hh2g] at hx
    cases hx

end Orderly

section Keeps

/-- What the calls of a guest keep. -/
structure Kept (s t : Flow) : Prop where
  orderly : Orderly t
  manned : s.manned → t.manned
  isDone : t.isDone = s.isDone
  outcomeVow : t.outcomeVow = s.outcomeVow

def Keeps (s t : Flow) : Prop := Orderly s → Kept s t

theorem Kept.trans {s t u : Flow} (h : Kept s t) (h' : Kept t u) : Kept s u where
  orderly := h'.orderly
  manned := fun hs => h'.manned (h.manned hs)
  isDone := h'.isDone.trans h.isDone
  outcomeVow := h'.outcomeVow.trans h.outcomeVow

instance : IsPreorder Flow Keeps where
  refl _ hs := ⟨hs, id, rfl, rfl⟩
  trans _ _ _ h h' hs := (h hs).trans (h' (h hs).orderly)

/-- The parts of a flow and of its membrane that matter here. -/
abbrev Flow.caps (s : Flow) :=
  (s.h2g, s.g2h, s.nextGuest,
    s.membrane.map fun membrane => (membrane.guestPromiseMap, membrane.watchers))

abbrev Flow.standing (s : Flow) := (s.caps, s.failure, s.isDone, s.outcomeVow)

theorem Orderly.of_caps {s t : Flow} (hs : Orderly s) (h : t.caps = s.caps) : Orderly t := by
  simp only [Flow.caps, Prod.mk.injEq] at h
  obtain ⟨hh2g, hg2h, hnext, hmembrane⟩ := h
  have hold : ∀ membrane, t.membrane = some membrane → ∃ old, s.membrane = some old ∧
      old.guestPromiseMap = membrane.guestPromiseMap ∧ old.watchers = membrane.watchers := by
    intro membrane hm
    rw [hm, Option.map_some] at hmembrane
    obtain ⟨old, hold, heq⟩ := Option.map_eq_some_iff.mp hmembrane.symm
    exact ⟨old, hold, Prod.mk.inj heq⟩
  refine ⟨⟨?_, ?_, ?_, ?_⟩, ?_, ?_, ?_⟩
  · rw [hh2g, hnext]
    exact hs.coherent.h2g
  · rw [hg2h, hnext]
    exact hs.coherent.g2h
  · intro membrane hm k hk
    obtain ⟨old, hs', hpromises, -⟩ := hold membrane hm
    rw [hnext]
    exact hs.coherent.promises old hs' k (hpromises ▸ hk)
  · intro membrane hm w hw
    obtain ⟨old, hs', -, hwatchers⟩ := hold membrane hm
    rw [hh2g]
    exact hs.coherent.watchers old hs' w (hwatchers ▸ hw)
  · rw [hh2g, hnext]
    exact hs.own
  · rw [hg2h, hnext]
    exact hs.ownKeys
  · rw [hh2g]
    exact hs.injective

theorem keeps_of_standing {s t : Flow} (h : t.standing = s.standing) : Keeps s t := by
  obtain ⟨hcaps, hrest⟩ := Prod.mk.inj h
  obtain ⟨hfailure, hrest⟩ := Prod.mk.inj hrest
  obtain ⟨hdone, hvow⟩ := Prod.mk.inj hrest
  intro hs
  refine ⟨hs.of_caps hcaps, ?_, hdone, hvow⟩
  intro hmanned hnone
  have hsome := hmanned (hfailure ▸ hnone)
  have hmembrane := congrArg (fun caps => caps.2.2.2.isSome) hcaps
  simp only [Option.isSome_map] at hmembrane
  rw [hmembrane]
  exact hsome

instance {f : Flow → Flow} [h : Same (fun s => (f s).standing) Flow.standing] :
    Moves Keeps (modify f : FlowM PUnit) :=
  moves_modify fun s => keeps_of_standing (congrFun h.eq s)

instance {f : Membrane → Membrane}
    [h : Same (fun membrane => ((f membrane).guestPromiseMap, (f membrane).watchers))
      (fun membrane => (membrane.guestPromiseMap, membrane.watchers))] :
    Moves Keeps (modifyMembrane f) := by
  apply moves_modify
  intro s
  apply keeps_of_standing
  simp only [Flow.standing, Flow.caps, Option.map_map]
  exact congrArg (fun g => ((_, _, _, s.membrane.map g), _)) h.eq

variable {s t : Flow} {isStorable : HostCap → Bool}

theorem Converts.kept (h : Converts s t) (ht : Orderly t) : Kept s t where
  orderly := ht
  manned := fun hs hnone => by
    have hfailure : t.failure = s.failure := by
      rw [h.frame]
    have hsome := hs (hfailure ▸ hnone)
    have hrel := h.membrane
    generalize s.membrane = a at hrel hsome
    generalize t.membrane = b at hrel
    cases hrel with
    | none => cases hsome
    | some => rfl
  isDone := by rw [h.frame]
  outcomeVow := by rw [h.frame]

theorem keeps_of_wp {ε α : Type} {m : EStateM ε Flow α}
    (h : ∀ s, Orderly s → Wp m (fun _ t => Kept s t) (fun _ t => Kept s t) s) : Moves Keeps m := by
  apply moves_of_wp
  intro s
  by_cases hs : Orderly s
  · exact wp_mono (h s hs) (fun _ _ ht _ => ht) fun _ _ ht _ => ht
  · exact wp_of_forall (fun _ _ ho => absurd ho hs) fun _ _ ho => absurd ho hs

instance (h : HostCap) : Moves Keeps (hostCapToGuest isStorable h) := by
  apply keeps_of_wp
  intro s hs
  cases hlookup : s.h2g.lookup h with
  | some g => exact hostCapToGuest_known hlookup ⟨hs, id, rfl, rfl⟩
  | none =>
    cases hconvertible : isConvertible isStorable h with
    | false =>
      apply wp_mono (hostCapToGuest_refused hlookup hconvertible)
      · exact fun _ _ hq => hq.elim
      · rintro _ t (rfl | rfl)
        · exact ⟨hs, id, rfl, rfl⟩
        · exact hs.coherent.promised.1.kept hs.promised
    | true =>
      apply wp_mono (hostCapToGuest_new hs.coherent hlookup hconvertible)
      · rintro _ t ⟨-, rfl⟩
        exact (hs.coherent.wrapped_converts hlookup).kept (hs.wrapped hlookup)
      · exact fun _ _ he => he.elim

instance (leaf : Leaf HostCap) : Moves Keeps (hostLeafToGuest isStorable leaf) := by
  unfold hostLeafToGuest
  split <;> infer_instance

instance (specimen : HostValue) : Moves Keeps (hostToGuest isStorable specimen) := by
  unfold hostToGuest
  infer_instance

instance (g : GuestCap) : Moves Keeps (guestCapToHost g) := by
  unfold guestCapToHost
  apply moves_seq inferInstance
  intro flow
  split <;> infer_instance

instance (leaf : Leaf GuestCap) : Moves Keeps (guestLeafToHost leaf) := by
  unfold guestLeafToHost
  split <;> infer_instance

instance (specimen : GuestValue) : Moves Keeps (guestToHost specimen) := by
  unfold guestToHost
  infer_instance

instance (guestTarget : GuestCap) (optVerb : Option String) (guestArgs : GuestValue)
    (callIndex : Nat) (entry : LogEntry) :
    Moves Keeps (equateCall guestTarget optVerb guestArgs callIndex entry) := by
  unfold equateCall
  infer_instance

instance : Moves Keeps getFlowState := by
  unfold getFlowState
  infer_instance

instance {α : Type} (fatalProblem : Problem) : Moves Keeps (panic fatalProblem : FlowM α) := by
  apply keeps_of_wp
  intro s hs
  simp only [panic, dropMembrane, logReset, bijectionReset, wp_bind, wp_modify]
  generalize hu : ({ s with
    failure := _, membrane := none, eph := _, g2h := ∅, h2g := ∅ } : Flow) = u
  have hkept : Kept s u := by
    subst hu
    exact ⟨.of_empty rfl rfl fun _ hm => (by cases hm), fun _ hnone => (by cases hnone), rfl, rfl⟩
  apply wp_mono (wp_of_moves Keeps getFlowState u)
  · intro flowState t hut
    have := hkept.trans (hut hkept.orderly)
    apply wp_ite <;> intro _ <;> exact this
  · exact fun _ t hut => hkept.trans (hut hkept.orderly)

instance {α : Type} (m : FlowM α) [Moves Keeps m] : Moves Keeps (orPanic m) := by
  unfold orPanic
  apply moves_seq inferInstance
  intro result
  split <;> infer_instance

instance : Moves Keeps peekEntry := by
  unfold peekEntry
  apply moves_seq inferInstance
  intro flow
  split <;> infer_instance

instance : Moves Keeps nextUnfilteredEntry := by
  unfold nextUnfilteredEntry
  infer_instance

instance (fuel : Nat) (result : LogEntry) : Moves Keeps (nextEntryLoop fuel result) := by
  induction fuel generalizing result with
  | zero => exact moves_pure _
  | succ fuel ih =>
    unfold nextEntryLoop
    infer_instance

instance : Moves Keeps nextEntry := by
  unfold nextEntry
  infer_instance

instance (entry : LogEntry) : Moves Keeps (pushOne isStorable entry) := by
  unfold pushOne
  infer_instance

instance (entry : LogEntry) : Moves Keeps (pushEntry isStorable entry) := by
  unfold pushEntry
  infer_instance

theorem Orderly.kept_settled (hs : Orderly s) {h : HostCap} {g : GuestCap}
    (hg : s.h2g.lookup h = some g) : Kept s (s.withSettled g) where
  orderly := hs.withSettled hg
  manned := fun hmanned hnone => by
    rw [Flow.withSettled, Option.isSome_map]
    exact hmanned hnone
  isDone := rfl
  outcomeVow := rfl

instance (hostVow : VowId) (settlement : HostValue) :
    Moves Keeps (settleGuestPromise isStorable hostVow settlement) := by
  apply keeps_of_wp
  intro s hs
  unfold settleGuestPromise
  rw [wp_bind]
  apply wp_mono (wp_and (wp_of_moves Keeps (hostCapToGuest isStorable (.vow hostVow)) s)
    (hostCapToGuest_spec hs.coherent (.vow hostVow)))
  · rintro guestPromise t ⟨hst, -, -, hg⟩
    replace hst := hst hs
    rw [wp_bind, wp_get]
    apply wp_ite
    · intro _
      rw [wp_bind]
      apply wp_mono (wp_and (wp_of_moves Keeps (hostToGuest isStorable settlement) t)
        (hostToGuest_spec hst.orderly.coherent settlement))
      · rintro _ u ⟨htu, hconv, -, -⟩
        replace htu := hst.trans (htu hst.orderly)
        exact htu.trans (htu.orderly.kept_settled (hconv.h2g _ _ hg))
      · rintro _ u ⟨htu, -⟩
        exact hst.trans (htu hst.orderly)
    · intro _
      exact hst
  · rintro _ t ⟨hst, -⟩
    exact hst hs

instance (entry : LogEntry) : Moves Keeps (topDispatch isStorable entry) := by
  unfold topDispatch doFulfill doReject
  split <;> infer_instance

instance (callIndex : Nat) : Moves Keeps (unnestInterpreter callIndex) := by
  unfold unnestInterpreter
  apply moves_seq inferInstance
  intro flow
  split
  · infer_instance
  · split <;> infer_instance

instance (entry : LogEntry) : Moves Keeps (nestDispatch isStorable entry) := by
  unfold nestDispatch doReturn doThrow
  split <;> infer_instance

instance (entry : LogEntry) : Moves Keeps (interpretTop isStorable entry) := by
  unfold interpretTop
  infer_instance

instance (entry : LogEntry) : Moves Keeps (interpretNest isStorable entry) := by
  unfold interpretNest
  infer_instance

instance (entry : LogEntry) : Moves Keeps (logDo isStorable entry) := by
  unfold logDo
  infer_instance

instance (fuel : Nat) : Moves Keeps (nestLoop isStorable fuel) := by
  induction fuel with
  | zero =>
    unfold nestLoop
    infer_instance
  | succ fuel ih =>
    unfold nestLoop
    apply moves_seq inferInstance
    intro flow
    split
    · apply moves_seq inferInstance
      intro entry
      apply moves_seq inferInstance
      intro outcome
      apply moves_seq inferInstance
      intro flow
      infer_instance
    · infer_instance

instance (callIndex : Nat) : Moves Keeps (nestInterpreter isStorable callIndex) := by
  unfold nestInterpreter
  infer_instance

instance (m fuel : Nat) : Moves Keeps (wakeLoop isStorable m fuel) := by
  induction fuel with
  | zero => exact moves_pure _
  | succ fuel ih =>
    unfold wakeLoop
    apply moves_seq inferInstance
    intro flow
    split <;> infer_instance

instance (m : Nat) : Moves Keeps (membraneWake isStorable m) := by
  unfold membraneWake
  infer_instance

instance (callIndex : Nat) (reply : HostReply) :
    Moves Keeps (performCall isStorable callIndex reply) := by
  unfold performCall
  split
  · infer_instance
  · apply moves_seq inferInstance
    intro result
    split <;> infer_instance

instance (guestTarget : GuestCap) (optVerb : Option String) (guestArgs : GuestValue)
    (callIndex : Nat) (reply : HostReply) :
    Moves Keeps (replayOrPerform isStorable guestTarget optVerb guestArgs callIndex reply) := by
  unfold replayOrPerform
  infer_instance

instance (m : Nat) (guestTarget : GuestCap) (optVerb : Option String) (guestArgs : GuestValue)
    (reply : HostReply) :
    Moves Keeps (guestCallsHost isStorable m guestTarget optVerb guestArgs reply) := by
  unfold guestCallsHost
  apply moves_seq inferInstance
  intro flow
  dsimp only
  split
  · infer_instance
  · apply moves_seq inferInstance
    intro outcome
    split <;> infer_instance

instance (m : Nat) (guestTarget : GuestCap) (optVerb : Option String) (guestArgs : GuestValue)
    (reply : HostReply) :
    Moves Keeps (guestMethod isStorable m guestTarget optVerb guestArgs reply) := by
  unfold guestMethod
  infer_instance

instance (m : Nat) (turn : GuestTurn) : Moves Keeps (runGuest isStorable m turn) := by
  induction turn with
  | finished => exact moves_pure _
  | call guestTarget optVerb guestArgs reply next ih =>
    unfold runGuest
    infer_instance

end Keeps

section Orders

def Orders (s t : Flow) : Prop := Orderly s → Orderly t

instance : IsPreorder Flow Orders where
  refl _ hs := hs
  trans _ _ _ h h' hs := h' (h hs)

theorem orders_of_keeps {α : Type} (m : FlowM α) [Moves Keeps m] : Moves Orders m :=
  moves_mono (R := Keeps) m fun _ _ h hs => (h hs).orderly

instance {f : Flow → Flow} [h : Same (fun s => (f s).caps) Flow.caps] :
    Moves Orders (modify f : FlowM PUnit) :=
  moves_modify fun s hs => hs.of_caps (congrFun h.eq s)

variable {isStorable : HostCap → Bool} {s : Flow}

instance : Moves Orders getFlowState := orders_of_keeps _

instance (f : Membrane → Membrane) [Moves Keeps (modifyMembrane f)] :
    Moves Orders (modifyMembrane f) := orders_of_keeps _

instance (specimen : HostValue) : Moves Orders (hostToGuest isStorable specimen) :=
  orders_of_keeps _

instance (m : Nat) : Moves Orders (membraneWake isStorable m) := orders_of_keeps _

instance (m : Nat) (turn : GuestTurn) : Moves Orders (runGuest isStorable m turn) :=
  orders_of_keeps _

instance : Moves Orders adminReset := by
  apply moves_of_wp
  intro s
  simp only [adminReset, dropMembrane, logReset, bijectionReset, wp_bind, wp_get]
  apply wp_ite
  · exact fun _ hs => hs
  · intro _ _
    exact .of_empty rfl rfl fun _ hm => (by cases hm)

instance : Moves Orders makeReplayMembrane := by
  apply moves_of_wp
  intro s hs
  refine ⟨⟨hs.coherent.h2g, hs.coherent.g2h, ?_, ?_⟩, hs.own, hs.ownKeys, hs.injective⟩
  · intro membrane hm k hk
    cases hm
    cases hk
  · intro membrane hm w hw
    cases hm
    cases hw

instance (eager : Bool) : Moves Orders (restartGuest isStorable eager) := by
  unfold restartGuest
  apply moves_seq inferInstance
  intro startFlowState
  split
  · infer_instance
  apply moves_seq inferInstance
  intro _
  apply moves_seq inferInstance
  intro _
  apply moves_seq inferInstance
  intro m
  apply moves_seq inferInstance
  intro flow
  apply moves_seq inferInstance
  intro guestArgs
  infer_instance

instance : Moves Orders complete := by
  unfold complete logDispose
  infer_instance

/-- A capability of the guest is registered for a host capability. -/
def Flow.registered (s : Flow) (h : HostCap) : Flow :=
  { s with
    g2h := s.g2h.insert (.own s.nextGuest) h
    h2g := s.h2g.insert h (.own s.nextGuest)
    nextGuest := s.nextGuest + 1 }

theorem registered_lookup {h x : HostCap} {g : GuestCap}
    (hx : (s.registered h).h2g.lookup x = some g) :
    x = h ∧ g = .own s.nextGuest ∨ s.h2g.lookup x = some g := by
  simp only [Flow.registered, Table.lookup_insert] at hx
  split at hx
  case isTrue heq =>
    cases hx
    exact Or.inl ⟨heq, rfl⟩
  case isFalse => exact Or.inr hx

theorem registered_has {h : HostCap} {g : GuestCap} (hg : (s.registered h).g2h.has g = true) :
    g = .own s.nextGuest ∨ s.g2h.has g = true := by
  rcases Table.has_insert_iff.mp hg with hkey | hold
  · exact Or.inl hkey
  · exact Or.inr hold

theorem Orderly.registered (hs : Orderly s) {h : HostCap} (hnone : s.h2g.lookup h = none) :
    Orderly (s.registered h) where
  coherent := {
    h2g := fun x k hx => by
      rcases registered_lookup hx with ⟨-, hg⟩ | hold
      · cases hg
      · exact Nat.lt_succ_of_lt (hs.coherent.h2g x k hold)
    g2h := fun k hk => by
      rcases registered_has hk with hg | hold
      · cases hg
      · exact Nat.lt_succ_of_lt (hs.coherent.g2h k hold)
    promises := fun membrane hm k hk =>
      Nat.lt_succ_of_lt (hs.coherent.promises membrane hm k hk)
    watchers := fun membrane hm w hw => by
      have hold := hs.coherent.watchers membrane hm w hw
      have hne : HostCap.vow w.1 ≠ h := by
        rintro rfl
        rw [hnone] at hold
        cases hold
      simp [Flow.registered, hne, hold] }
  own := fun x k hx => by
    rcases registered_lookup hx with ⟨-, hg⟩ | hold
    · cases hg
      exact Nat.lt_succ_self _
    · exact Nat.lt_succ_of_lt (hs.own x k hold)
  ownKeys := fun k hk => by
    rcases registered_has hk with hg | hold
    · cases hg
      exact Nat.lt_succ_self _
    · exact Nat.lt_succ_of_lt (hs.ownKeys k hold)
  injective := fun x y g hx hy => by
    have hfresh : ∀ z, s.h2g.lookup z ≠ some (.own s.nextGuest) := by
      intro z hz
      have := hs.own z _ hz
      omega
    rcases registered_lookup hx with ⟨rfl, rfl⟩ | hxold
    · rcases registered_lookup hy with ⟨rfl, -⟩ | hyold
      · rfl
      · exact absurd hyold (hfresh y)
    · rcases registered_lookup hy with ⟨rfl, rfl⟩ | hyold
      · exact absurd hxold (hfresh x)
      · exact hs.injective x y g hxold hyold

theorem Orderly.newGuest (hs : Orderly s) : Orderly { s with nextGuest := s.nextGuest + 1 } where
  coherent := {
    h2g := fun x k hx => Nat.lt_succ_of_lt (hs.coherent.h2g x k hx)
    g2h := fun k hk => Nat.lt_succ_of_lt (hs.coherent.g2h k hk)
    promises := fun membrane hm k hk => Nat.lt_succ_of_lt (hs.coherent.promises membrane hm k hk)
    watchers := hs.coherent.watchers }
  own := fun x k hx => Nat.lt_succ_of_lt (hs.own x k hx)
  ownKeys := fun k hk => Nat.lt_succ_of_lt (hs.ownKeys k hk)
  injective := hs.injective

theorem Orderly.registerResult_spec (hs : Orderly s) :
    Wp (unwrapInit (.own s.nextGuest) (.vow s.outcomeVow))
      (fun _ t => s.h2g.has (.vow s.outcomeVow) = false ∧ t = s.registered (.vow s.outcomeVow))
      (fun _ t => s.h2g.has (.vow s.outcomeVow) = true ∧ Orderly t)
      { s with nextGuest := s.nextGuest + 1 } := by
  have hfresh : s.g2h.has (.own s.nextGuest) = false := by
    rw [Bool.eq_false_iff]
    intro hk
    have := hs.ownKeys _ hk
    omega
  unfold unwrapInit
  rw [wp_bind, wp_get]
  apply wp_ite
  · exact fun hknown => ⟨hknown, hs.newGuest⟩
  · intro hunknown
    apply wp_ite
    · intro hhas
      rw [hfresh] at hhas
      cases hhas
    · intro _
      exact ⟨Bool.eq_false_iff.mpr hunknown, rfl⟩

theorem not_has_lookup {h : HostCap} (hhas : s.h2g.has h = false) : s.h2g.lookup h = none := by
  rw [Table.has, Option.isSome_eq_false_iff, Option.isNone_iff_eq_none] at hhas
  exact hhas

instance : Moves Orders registerGuestResult := by
  apply moves_seq inferInstance
  intro flowState
  split
  case isFalse => infer_instance
  apply moves_of_wp
  intro s
  by_cases hs : Orderly s
  · rw [wp_bind, wp_get, wp_bind, wp_modify, wp_bind]
    apply wp_mono hs.registerResult_spec
    · rintro _ t ⟨hunknown, rfl⟩
      have ht := hs.registered (not_has_lookup hunknown)
      apply wp_mono (wp_of_moves Orders (modifyMembrane _) (s.registered (.vow s.outcomeVow)))
      · exact fun _ u hu _ => hu ht
      · exact fun _ u hu _ => hu ht
    · exact fun _ t ⟨_, ht⟩ _ => ht
  · exact wp_of_forall (fun _ _ ho => absurd ho hs) fun _ _ ho => absurd ho hs

instance (eager : Bool) (guestAsyncFunc : GuestValue → GuestTurn) :
    Moves Orders (AsyncFlow.restart isStorable eager guestAsyncFunc) := by
  unfold AsyncFlow.restart
  infer_instance

instance (startEager : Bool) (guestAsyncFunc : GuestValue → GuestTurn) :
    Moves Orders (AsyncFlow.wake isStorable startEager guestAsyncFunc) := by
  unfold AsyncFlow.wake
  apply moves_seq inferInstance
  intro flowState
  cases flowState with
  | done | failed | sleeping => infer_instance
  | running | replaying =>
    apply moves_seq inferInstance
    intro flow
    split <;> infer_instance

instance {α : Type} (problem : Problem) : Moves Orders (panic problem : FlowM α) :=
  orders_of_keeps _

instance (settlement : Settlement GuestValue) : Moves Orders (settlementToHost settlement) := by
  unfold settlementToHost
  have hvalue : ∀ value, Moves Orders (guestToHost value) := fun value => orders_of_keeps _
  split <;> infer_instance

instance (m : Nat) (settlement : Settlement GuestValue) :
    Moves Orders (settleOutcome m settlement) := by
  unfold settleOutcome
  apply moves_seq inferInstance
  intro flow
  split
  · infer_instance
  · split <;> infer_instance

instance (m : Nat) (settlement : Settlement GuestValue) :
    Moves Orders (guestSettles m settlement) := by
  unfold guestSettles
  apply moves_seq inferInstance
  intro result
  split <;> infer_instance

instance (hVow : VowId) (promiseKey : GuestCap) (settlement : Settlement HostValue) :
    Moves Orders (settleVow isStorable hVow promiseKey settlement) := by
  have hpush : ∀ entry, Moves Orders (pushEntry isStorable entry) := fun entry =>
    orders_of_keeps _
  have htop : ∀ entry, Moves Orders (interpretTop isStorable entry) := fun entry =>
    orders_of_keeps _
  unfold settleVow
  infer_instance

theorem Orderly.takeWatcher {i : Nat} (hs : Orderly s) : Orderly (takeWatcher i s) where
  coherent := {
    h2g := hs.coherent.h2g
    g2h := hs.coherent.g2h
    promises := fun membrane hm k hk => by
      obtain ⟨old, hold, rfl⟩ := Option.map_eq_some_iff.mp hm
      exact hs.coherent.promises old hold k hk
    watchers := fun membrane hm w hw => by
      obtain ⟨old, hold, rfl⟩ := Option.map_eq_some_iff.mp hm
      exact hs.coherent.watchers old hold w (List.mem_of_mem_eraseIdx hw) }
  own := hs.own
  ownKeys := hs.ownKeys
  injective := hs.injective

theorem Orderly.finalState {α : Type} (hs : Orderly s) (m : FlowM α) [h : Moves Orders m] :
    Orderly (finalState m s) := h.rel s hs

theorem Orderly.step {event : FlowEvent} {t : Flow} (hs : Orderly s)
    (h : s.step isStorable event = some t) : Orderly t := by
  have hcalls : ∀ m guestTarget optVerb guestArgs reply,
      Moves Orders (guestMethod isStorable m guestTarget optVerb guestArgs reply) := by
    intros
    exact orders_of_keeps _
  cases event with
  | restart eager =>
    simp only [Flow.step] at h
    split at h
    · cases h
    · have hnext := hs.finalState (restartGuest isStorable eager)
      unfold StateProgram.finalState at hnext
      split at h <;> rename_i hrun <;> rw [hrun] at hnext <;> cases h
      · exact hnext.of_caps rfl
      · exact hnext
  | guestReturns =>
    simp only [Flow.step] at h
    split at h
    · cases h
      exact (hs.finalState registerGuestResult).of_caps rfl
    · cases h
  | vowSettled m i settlement =>
    simp only [Flow.step] at h
    split at h
    · cases h
    · split at h
      · cases h
      · split at h
        · cases h
        · split at h
          · cases h
            exact hs.takeWatcher.finalState _
          · cases h
  | guestCalls | guestSends | guestSettles | wakeMembrane =>
    simp only [Flow.step] at h
    split at h
    · cases h
    · cases h
      exact hs.finalState _
  | newIncarnation =>
    simp only [Flow.step] at h
    split at h
    · cases h
    · cases h
      exact .of_empty rfl rfl fun _ hm => (by cases hm)

theorem orderly_reachable {ok : Flow → FlowEvent → Prop}
    (h : (flowSystem isStorable).Reachable ok s) : Orderly s := by
  apply h.invariant
  · intro s hs
    apply Orderly.of_empty hs.h2g hs.g2h
    intro membrane hm
    rw [hs.membrane] at hm
    cases hm
  · exact fun s event t hs _ hstep => hs.step hstep

end Orders

end AgoricSdk.AsyncFlow
