import AgoricSdk.AsyncFlow.ReplayCalls

/-!
The runs of a flow: settlements of host vows, replayed or new, the start and the end
of a guest, panics and upgrades. The last section assembles the invariant of the
runs in which no guest is replayed from a call that ends the log.
-/

namespace AgoricSdk.AsyncFlow

open StateProgram

section Settlements

variable {isStorable : HostCap → Bool} {s t : Flow} {hostVow : VowId} {entry : LogEntry}

/-- In the middle of a settlement: its entry was consumed and not yet interpreted. -/
structure Settling (hostVow : VowId) (entry : LogEntry) (s : Flow) (membrane : Membrane) :
    Prop where
  inPlace : s.membrane = some membrane
  callStack : membrane.callStack = []
  sound : ReplayLogSound s
  cursor : Cursor s
  coherent : Coherent s
  settles : settledVow entry = some hostVow
  consumed : ∃ log, Paired log ∧ visible s.consumed = log ++ [entry] ∧
    ∀ v ∈ settledVows log, ∃ key,
      s.h2g.lookup (.vow v) = some key ∧ membrane.guestPromiseMap.lookup key = some .settled

theorem settleGuestPromise_spec {membrane : Membrane} (h : Settling hostVow entry s membrane)
    (settlement : HostValue) :
    Wp (settleGuestPromise isStorable hostVow settlement) (fun _ t => FlowInv [] t)
      (fun _ t => ReplayLogSound t) s := by
  unfold settleGuestPromise
  rw [wp_bind]
  apply wp_mono (hostCapToGuest_spec h.coherent (.vow hostVow))
  · rintro guestPromise t ⟨hst, ht, hlookup⟩
    have hsound := h.sound.same hst.sameLog
    rw [wp_bind, wp_get]
    apply wp_ite
    · intro _
      rw [wp_bind]
      apply wp_mono (hostToGuest_spec ht settlement)
      · rintro _ u ⟨htu, hu, -⟩
        have hsu := hst.trans htu
        have hrel := hsu.membrane
        rw [h.inPlace] at hrel
        generalize hm : u.membrane = m at hrel
        cases hrel with
        | @some _ membrane' hgrows =>
        obtain ⟨log, hpaired, hconsumed, hsettled⟩ := h.consumed
        have hkey : u.h2g.lookup (.vow hostVow) = some guestPromise := htu.h2g _ _ hlookup
        have hconsumedu : visible u.consumed = log ++ [entry] := by
          rw [hsu.consumed]
          exact hconsumed
        rw [modifyMembrane, wp_modify]
        constructor
        · exact (h.sound.same hsu.sameLog).same ⟨rfl, rfl⟩
        · have hcursor := hsu.cursor h.cursor
          exact ⟨hcursor.le, hcursor.index, hcursor.replayDone, hcursor.initialPush⟩
        · constructor
          · exact hu.h2g
          · exact hu.g2h
          · intro membrane'' hm'' k hk
            obtain ⟨_, hmembrane, rfl⟩ := Option.map_eq_some_iff.mp hm''
            rcases Table.has_insert_iff.mp hk with hnew | hold
            · rw [← hnew] at hkey
              exact hu.h2g _ _ hkey
            · exact hu.promises _ hmembrane k hold
          · intro membrane'' hm'' w hw
            obtain ⟨_, hmembrane, rfl⟩ := Option.map_eq_some_iff.mp hm''
            exact hu.watchers _ hmembrane w hw
        · intro membrane'' hm''
          obtain ⟨_, hmembrane, rfl⟩ := Option.map_eq_some_iff.mp hm''
          obtain rfl := Option.some.inj (hm.symm.trans hmembrane)
          constructor
          · show membrane'.callStack = []
            rw [hgrows.frame]
            exact h.callStack
          · show Paired (visible u.consumed)
            rw [hconsumedu]
            exact hpaired.settle h.settles
          · intro v hv
            replace hv : v ∈ settledVows (visible u.consumed) := hv
            rw [hconsumedu, settledVows, List.filterMap_append, List.mem_append] at hv
            rcases hv with hold | hnew
            · obtain ⟨key, hv, hstatus⟩ := hsettled v hold
              refine ⟨key, hsu.h2g _ _ hv, ?_⟩
              rw [Table.lookup_insert, hgrows.settled key hstatus]
              split <;> rfl
            · have hvow : v = hostVow := by simpa [h.settles] using hnew
              rw [hvow]
              exact ⟨guestPromise, hkey, by rw [Table.lookup_insert, if_pos rfl]⟩
      · rintro _ u ⟨htu, -⟩
        exact hsound.same htu.sameLog
    · intro _
      exact hsound
  · rintro _ t ⟨hst, -⟩
    exact h.sound.same hst.sameLog

theorem interpretTop_spec {membrane : Membrane} (h : Settling hostVow entry s membrane) :
    Wp (interpretTop isStorable entry) (fun _ t => FlowInv [] t) (fun _ t => FlowInv [] t) s := by
  have hdispatch : Wp (topDispatch isStorable entry) (fun _ t => FlowInv [] t)
      (fun _ t => ReplayLogSound t) s := by
    have hentry := h.settles
    cases entry with
    | doFulfill v value =>
      cases hentry
      exact settleGuestPromise_spec h value
    | doReject v value =>
      cases hentry
      exact settleGuestPromise_spec h value
    | startGeneration | doReturn | doThrow | checkCall => cases hentry
  unfold interpretTop
  apply wp_mono (orPanic_spec hdispatch)
  · exact fun _ _ hq => hq
  · exact fun _ _ ⟨hstart, hsound⟩ => hstart.inv hsound

theorem wakeLoop_spec {m fuel : Nat} (hs : FlowInv [] s) :
    Wp (wakeLoop isStorable m fuel) (fun _ t => FlowInv [] t) (fun _ t => FlowInv [] t) s := by
  induction fuel generalizing s with
  | zero => exact hs
  | succ fuel ih =>
    unfold wakeLoop
    rw [wp_bind, wp_get]
    cases hm : s.membrane with
    | none => exact hs
    | some membrane =>
    dsimp only
    apply wp_ite
    · rintro ⟨hreplaying, -⟩
      obtain ⟨entry, rest, hrest⟩ := rest_cons hreplaying
      obtain ⟨hreads, -⟩ := hs.cursor.advanced hrest
      apply wp_ite
      · intro hstack
        rw [wp_bind, wp_of_run (peekEntry_run hrest)]
        apply wp_ite
        · intro htop
          rw [wp_bind, wp_of_run (nextUnfilteredEntry_run hrest), wp_bind]
          have hinterpret : Wp (interpretTop isStorable entry) (fun _ t => FlowInv [] t)
              (fun _ t => FlowInv [] t) (s.advanced entry) := by
            obtain ⟨-, hpaired, hsettled⟩ := hs.inStep membrane hm
            have hsettling : ∀ v, settledVow entry = some v → visible [entry] = [entry] →
                Settling v entry (s.advanced entry) membrane := by
              intro v hv hvisible
              have hconsumed := hreads.consumed
              rw [hvisible] at hconsumed
              exact ⟨hm, hstack, hs.sound.same hreads.sameLog, hreads.cursor,
                hreads.coherent hs.coherent, hv, _, hpaired, hconsumed, hsettled⟩
            cases entry with
            | startGeneration generation =>
              have hconsumed : visible (s.advanced (.startGeneration generation)).consumed =
                  visible s.consumed := by
                rw [hreads.consumed]
                exact List.append_nil _
              apply wp_mono (orPanic_spec (Q := fun _ t => FlowInv [] t) ?_)
              · exact fun _ _ hq => hq
              · rintro _ _ ⟨hstart, hsound⟩
                exact hstart.inv hsound
              · refine ⟨hs.sound.same hreads.sameLog, hreads.cursor, hreads.coherent hs.coherent, ?_⟩
                intro membrane' hm'
                obtain ⟨hstack', hpaired', hsettled'⟩ := hs.inStep membrane' hm'
                refine ⟨hstack', ?_, ?_⟩
                · rw [hconsumed]
                  exact hpaired'
                · rw [hconsumed]
                  exact hsettled'
            | doFulfill v value => exact interpretTop_spec (hsettling v rfl rfl)
            | doReject v value => exact interpretTop_spec (hsettling v rfl rfl)
            | doReturn | doThrow | checkCall => cases htop
          exact wp_mono hinterpret (fun _ t ht => ih ht) fun _ _ he => he
        · intro _
          exact hs
      · intro _
        exact hs
    · intro _
      exact hs

theorem membraneWake_spec {m : Nat} (hs : FlowInv [] s) :
    Wp (membraneWake isStorable m) (fun _ t => FlowInv [] t) (fun _ t => FlowInv [] t) s := by
  unfold membraneWake
  rw [wp_bind, wp_get]
  exact wakeLoop_spec hs

theorem not_replaying_of_replayDone (hs : Cursor s) (hdone : s.eph.replayDone = true) :
    s.isReplaying = false := by
  rw [hs.replayDone] at hdone
  have hle := of_decide_eq_true hdone
  rw [Bool.eq_false_iff, Ne, isReplaying_iff]
  omega

theorem settlement_logEntry (settlement : Settlement HostValue) (hostVow : VowId) :
    settledVow (settlement.logEntry hostVow) = some hostVow ∧
      visible [settlement.logEntry hostVow] = [settlement.logEntry hostVow] := by
  cases settlement with
  | fulfilled value => exact ⟨rfl, rfl⟩
  | rejected reason => exact ⟨rfl, rfl⟩

theorem settleVow_spec {membrane : Membrane} {promiseKey : GuestCap} (hs : FlowInv [] s)
    (hm : s.membrane = some membrane) (hkey : s.h2g.lookup (.vow hostVow) = some promiseKey)
    (hdone : s.eph.replayDone = true) (settlement : Settlement HostValue) :
    Wp (settleVow isStorable hostVow promiseKey settlement) (fun _ t => FlowInv [] t)
      (fun _ t => FlowInv [] t) s := by
  have hreplaying := not_replaying_of_replayDone hs.cursor hdone
  obtain ⟨hstack, hpaired, hsettled⟩ := hs.inStep membrane hm
  obtain ⟨hentry, hvisible⟩ := settlement_logEntry settlement hostVow
  have hstore := consumed_of_not_replaying hreplaying
  unfold settleVow
  rw [wp_bind, wp_get]
  apply wp_ite
  · intro _
    exact hs
  · intro hopen
    change Wp (pushEntry isStorable (settlement.logEntry hostVow) >>= fun _ =>
      attempt (interpretTop isStorable (settlement.logEntry hostVow)) >>= fun _ => pure ()) _ _ s
    generalize settlement.logEntry hostVow = entry at hentry hvisible ⊢
    rw [wp_bind]
    apply wp_mono (pushEntry_spec hs.cursor.initialPush hreplaying)
    · rintro _ t ⟨before, hbefore, hpush⟩
      obtain ⟨hcursor, hreplaying'⟩ := hpush.cursor hs.cursor hreplaying
      have hnew : visible (before ++ [entry]) = [entry] := by
        rw [visible_append, hbefore, hvisible]
        rfl
      have hlog : visible t.mapStore = visible s.consumed ++ [entry] := by
        rw [hpush.visible, hnew, hstore]
      -- the guest promise of the vow is not settled, so no entry settles the vow
      have hfresh : hostVow ∉ settledVows (visible s.consumed) := by
        intro hmem
        obtain ⟨key, hlookup, hstatus⟩ := hsettled hostVow hmem
        rw [hkey] at hlookup
        cases hlookup
        apply hopen
        rw [hm]
        exact hstatus
      have hsound : ReplayLogSound t := {
        grammar := by
          rw [hlog]
          exact (hpaired.settle hentry).inGrammar
        settledOnce := by
          have hold := hs.sound.settledOnce
          rw [← hstore] at hold
          rw [hlog, settledVows, List.filterMap_append]
          simp only [List.filterMap_cons, hentry, List.filterMap_nil]
          apply List.nodup_append.mpr
          refine ⟨hold, List.nodup_singleton _, ?_⟩
          intro v hv w hw hvw
          rw [List.mem_singleton] at hw
          rw [hvw, hw] at hv
          exact hfresh hv
        deliveries := by
          rw [hpush.frame]
          exact hs.sound.deliveries }
      have hsettling : Settling hostVow entry t membrane := {
        inPlace := by
          rw [hpush.frame]
          exact hm
        callStack := hstack
        sound := hsound
        cursor := hcursor
        coherent := hpush.coherent hs.coherent
        settles := hentry
        consumed := by
          have hh2g : t.h2g = s.h2g := by rw [hpush.frame]
          refine ⟨_, hpaired, ?_, ?_⟩
          · rw [consumed_of_not_replaying hreplaying', hlog]
          · rw [hh2g]
            exact hsettled }
      rw [wp_bind, wp_attempt]
      exact interpretTop_spec hsettling
    · rintro _ t ⟨before, hbefore, hpush⟩
      obtain ⟨hcursor, hreplaying'⟩ := hpush.cursor hs.cursor hreplaying
      have hsound : ReplayLogSound t := by
        apply hpush.sound hs.sound
        · rw [hbefore, List.append_nil]
          exact hs.sound.grammar
        · rw [hbefore]
          rfl
      have hconsumed : visible t.consumed = visible s.consumed := by
        rw [consumed_of_not_replaying hreplaying', hpush.visible, hbefore, List.append_nil, hstore]
      refine ⟨hsound, hcursor, hpush.coherent hs.coherent, ?_⟩
      intro membrane' hm'
      have hmembrane : t.membrane = s.membrane := by rw [hpush.frame]
      have hh2g : t.h2g = s.h2g := by rw [hpush.frame]
      rw [hmembrane] at hm'
      obtain ⟨hstack', hpaired', hsettled'⟩ := hs.inStep membrane' hm'
      constructor
      · exact hstack'
      · rw [hconsumed]
        exact hpaired'
      · rw [hconsumed, hh2g]
        exact hsettled'

end Settlements

section Activations

variable {isStorable : HostCap → Bool} {s t : Flow}

theorem FlowInv.frame {stack : List Nat} (hs : FlowInv stack s) (hsame : SameLog s t)
    (heph : t.eph = s.eph) (hh2g : t.h2g = s.h2g) (hg2h : t.g2h = s.g2h)
    (hmembrane : t.membrane = s.membrane) (hnext : t.nextGuest = s.nextGuest) :
    FlowInv stack t where
  sound := hs.sound.same hsame
  cursor := by
    have hconsumed : t.consumed = s.consumed := by
      unfold Flow.consumed
      rw [heph, hsame.mapStore]
    constructor
    · rw [heph, hsame.mapStore]
      exact hs.cursor.le
    · rw [heph, hconsumed]
      exact hs.cursor.index
    · rw [heph, hsame.mapStore]
      exact hs.cursor.replayDone
    · rw [heph]
      exact hs.cursor.initialPush
  coherent := by
    constructor
    · rw [hh2g, hnext]
      exact hs.coherent.h2g
    · rw [hg2h, hnext]
      exact hs.coherent.g2h
    · rw [hmembrane, hnext]
      exact hs.coherent.promises
    · rw [hmembrane, hh2g]
      exact hs.coherent.watchers
  inStep := by
    have hconsumed : t.consumed = s.consumed := by
      unfold Flow.consumed
      rw [heph, hsame.mapStore]
    intro membrane hm
    rw [hmembrane] at hm
    obtain ⟨hstack, hpaired, hsettled⟩ := hs.inStep membrane hm
    constructor
    · exact hstack
    · rw [hconsumed]
      exact hpaired
    · rw [hconsumed, hh2g]
      exact hsettled

theorem adminReset_spec :
    Wp adminReset (fun _ t => AtStart t ∧ SameLog s t) (fun _ t => t = s) s := by
  simp only [adminReset, dropMembrane, logReset, bijectionReset, wp_bind, wp_get]
  apply wp_ite
  · intro _
    exact rfl
  · intro _
    exact ⟨⟨rfl, rfl, rfl, rfl⟩, rfl, rfl⟩

theorem AtStart.membrane_inv (h : AtStart s) (hs : ReplayLogSound s) (m : Nat) :
    FlowInv [] { s with
      nextMembrane := m + 1
      membrane := some ⟨m, ∅, [], false, [], none⟩ } where
  sound := hs.same ⟨rfl, rfl⟩
  cursor := cursor_reinit h.eph
  coherent := {
    h2g := (show FlowInv [] s from h.inv hs).coherent.h2g
    g2h := (show FlowInv [] s from h.inv hs).coherent.g2h
    promises := fun membrane hm k hk => by
      cases hm
      cases hk
    watchers := fun membrane hm w hw => by
      cases hm
      cases hw }
  inStep := fun membrane hm => by
    have hconsumed : s.consumed = [] := by
      unfold Flow.consumed
      rw [h.eph]
      rfl
    cases hm
    refine ⟨rfl, ?_, ?_⟩
    · show Paired (visible s.consumed)
      rw [hconsumed]
      exact .nil
    · show ∀ v ∈ settledVows (visible s.consumed), _
      rw [hconsumed]
      intro v hv
      cases hv

theorem restartGuest_spec {eager : Bool} (hs : FlowInv [] s) :
    Wp (restartGuest isStorable eager) (fun _ t => FlowInv [] t) (fun _ t => FlowInv [] t) s := by
  unfold restartGuest
  rw [wp_bind]
  apply wp_mono getFlowState_spec
  · rintro startFlowState t rfl
    apply wp_ite
    · intro _
      exact hs
    · intro _
      rw [wp_bind]
      apply wp_mono adminReset_spec
      · rintro _ u ⟨hstart, hsame⟩
        have hsound := hs.sound.same hsame
        simp only [makeReplayMembrane, wp_bind, wp_modify, wp_get, wp_pure]
        have hinv := AtStart.membrane_inv (s := { u with eagerWaker := eager })
          ⟨hstart.membrane, hstart.eph, hstart.h2g, hstart.g2h⟩ (hsound.same ⟨rfl, rfl⟩)
          u.nextMembrane
        apply wp_mono (hostToGuest_spec hinv.coherent _)
        · rintro guestArgs v ⟨hconv, hv, -⟩
          have hinv' := hinv.converts hconv hv
          apply wp_mono getFlowState_spec
          · rintro flowState w rfl
            apply wp_ite
            · intro _
              rw [wp_bind]
              exact wp_mono (membraneWake_spec hinv') (fun _ _ h => h) fun _ _ h => h
            · intro _
              exact hinv'
          · rintro _ w rfl
            exact hinv'
        · rintro _ v ⟨hconv, hv⟩
          exact hinv.converts hconv hv
      · rintro _ u rfl
        exact hs
  · rintro _ t rfl
    exact hs

theorem registerGuestResult_spec (hs : FlowInv [] s) :
    Wp registerGuestResult (fun _ t => FlowInv [] t) (fun _ t => FlowInv [] t) s := by
  unfold registerGuestResult
  rw [wp_bind]
  apply wp_mono getFlowState_spec
  · rintro flowState t rfl
    apply wp_ite
    · intro _
      simp only [unwrapInit, modifyMembrane, wp_bind, wp_get, wp_modify]
      have hnext : FlowInv [] { t with nextGuest := t.nextGuest + 1 } := {
        sound := hs.sound.same ⟨rfl, rfl⟩
        cursor := ⟨hs.cursor.le, hs.cursor.index, hs.cursor.replayDone, hs.cursor.initialPush⟩
        coherent := ⟨fun h k hk => Nat.lt_succ_of_lt (hs.coherent.h2g h k hk),
          fun k hk => Nat.lt_succ_of_lt (hs.coherent.g2h k hk),
          fun membrane hm k hk => Nat.lt_succ_of_lt (hs.coherent.promises membrane hm k hk),
          hs.coherent.watchers⟩
        inStep := fun membrane hm => by
          obtain ⟨hstack, hpaired, hsettled⟩ := hs.inStep membrane hm
          exact ⟨hstack, hpaired, hsettled⟩ }
      apply wp_ite
      · intro _
        exact hnext
      · intro hhost
        apply wp_ite
        · intro _
          exact hnext
        · intro _
          have hmono : ∀ x g, t.h2g.lookup x = some g →
              (t.h2g.insert (.vow t.outcomeVow) (.own t.nextGuest)).lookup x = some g := by
            intro x g hx
            have hne : x ≠ .vow t.outcomeVow := by
              rintro rfl
              exact hhost (Table.has_of_lookup hx)
            simp [hne, hx]
          constructor
          · exact hs.sound.same ⟨rfl, rfl⟩
          · exact ⟨hs.cursor.le, hs.cursor.index, hs.cursor.replayDone, hs.cursor.initialPush⟩
          · constructor
            · intro h k hk
              rw [Table.lookup_insert] at hk
              split at hk
              · cases hk
              · exact Nat.lt_succ_of_lt (hs.coherent.h2g h k hk)
            · intro k hk
              rcases Table.has_insert_iff.mp hk with hnew | hold
              · cases hnew
              · exact Nat.lt_succ_of_lt (hs.coherent.g2h k hold)
            · intro membrane' hm' k hk
              obtain ⟨membrane, hm, rfl⟩ := Option.map_eq_some_iff.mp hm'
              exact Nat.lt_succ_of_lt (hs.coherent.promises membrane hm k hk)
            · intro membrane' hm' w hw
              obtain ⟨membrane, hm, rfl⟩ := Option.map_eq_some_iff.mp hm'
              exact hmono _ _ (hs.coherent.watchers membrane hm w hw)
          · intro membrane' hm'
            obtain ⟨membrane, hm, rfl⟩ := Option.map_eq_some_iff.mp hm'
            obtain ⟨hstack, hpaired, hsettled⟩ := hs.inStep membrane hm
            refine ⟨hstack, hpaired, ?_⟩
            intro v hv
            obtain ⟨key, hkey, hstatus⟩ := hsettled v hv
            exact ⟨key, hmono _ _ hkey, hstatus⟩
    · intro _
      exact hs
  · rintro _ t rfl
    exact hs

theorem complete_spec (hs : FlowInv [] s) :
    Wp complete (fun _ t => FlowInv [] t) (fun _ t => FlowInv [] t) s := by
  unfold complete
  rw [wp_bind]
  apply wp_mono adminReset_spec
  · rintro _ t ⟨hstart, hsame⟩
    simp only [logDispose, wp_bind, wp_modify]
    have hinv : FlowInv [] { t with
        eagerWaker := false
        forOutcomeVow := false
        isDone := true
        mapStore := []
        eph := reinitLog t.generation [] } := by
      refine AtStart.inv ⟨hstart.membrane, rfl, hstart.h2g, hstart.g2h⟩ ?_
      exact ⟨rfl, List.nodup_nil, (hs.sound.same hsame).deliveries⟩
    apply wp_mono getFlowState_spec
    · rintro flowState u rfl
      apply wp_ite <;> intro _ <;> exact hinv
    · rintro _ u rfl
      exact hinv
  · rintro _ t rfl
    exact hs

theorem settlementToHost_reads (settlement : Settlement GuestValue) :
    Wp (settlementToHost settlement) (fun _ t => t = s) (fun _ t => t = s) s := by
  cases settlement with
  | fulfilled value =>
    rw [settlementToHost, wp_map]
    exact guestToHost_reads value
  | rejected reason =>
    rw [settlementToHost, wp_map]
    exact guestToHost_reads reason

theorem panic_inv {α : Type} {Q : α → Flow → Prop} (hs : ReplayLogSound s) (problem : Problem) :
    Wp (panic problem : FlowM α) Q (fun _ t => FlowInv [] t) s := by
  apply wp_mono (panic_spec (Q := Q) problem)
  · exact fun _ _ hq => hq
  · exact fun _ _ ⟨hstart, hsame⟩ => hstart.inv (hs.same hsame)

theorem settleOutcome_spec {m : Nat} (hs : FlowInv [] s) (settlement : Settlement GuestValue) :
    Wp (settleOutcome m settlement) (fun _ t => FlowInv [] t) (fun _ t => FlowInv [] t) s := by
  unfold settleOutcome
  rw [wp_bind, wp_get]
  cases s.membrane with
  | none => exact hs
  | some membrane =>
  dsimp only
  cases membrane.guestResultP with
  | none => exact hs
  | some guestResultP =>
  dsimp only
  apply wp_ite
  · intro _
    apply wp_ite
    · intro _
      exact panic_inv hs.sound _
    · intro _
      rw [wp_bind]
      apply wp_mono (settlementToHost_reads settlement)
      · rintro outcome t rfl
        rw [wp_bind, wp_modify]
        apply complete_spec
        exact hs.frame ⟨rfl, rfl⟩ rfl rfl rfl rfl rfl
      · rintro _ t rfl
        exact hs
  · intro _
    exact hs

theorem guestSettles_spec {m : Nat} (hs : FlowInv [] s) (settlement : Settlement GuestValue) :
    Wp (guestSettles m settlement) (fun _ t => FlowInv [] t) (fun _ t => FlowInv [] t) s := by
  unfold guestSettles
  rw [wp_bind, wp_attempt]
  apply wp_mono (settleOutcome_spec hs settlement)
  · exact fun _ _ ht => ht
  · intro problem t ht
    rw [wp_bind]
    apply wp_mono getFlowState_spec
    · rintro flowState u rfl
      apply wp_ite
      · intro _
        exact ht
      · intro _
        exact panic_inv ht.sound problem
    · rintro _ u rfl
      exact ht

end Activations

section Runs

variable {isStorable : HostCap → Bool} {s t : Flow}

theorem FlowInv.takeWatcher {i : Nat} (hs : FlowInv [] s) : FlowInv [] (takeWatcher i s) where
  sound := hs.sound.same ⟨rfl, rfl⟩
  cursor := ⟨hs.cursor.le, hs.cursor.index, hs.cursor.replayDone, hs.cursor.initialPush⟩
  coherent := ⟨hs.coherent.h2g, hs.coherent.g2h,
    fun membrane' hm => by
      obtain ⟨membrane, hmembrane, rfl⟩ := Option.map_eq_some_iff.mp hm
      exact hs.coherent.promises membrane hmembrane,
    fun membrane' hm w hw => by
      obtain ⟨membrane, hmembrane, rfl⟩ := Option.map_eq_some_iff.mp hm
      exact hs.coherent.watchers membrane hmembrane w (List.mem_of_mem_eraseIdx hw)⟩
  inStep := fun membrane' hm => by
    obtain ⟨membrane, hmembrane, rfl⟩ := Option.map_eq_some_iff.mp hm
    obtain ⟨hstack, hpaired, hsettled⟩ := hs.inStep membrane hmembrane
    exact ⟨hstack, hpaired, hsettled⟩

theorem Flow.Initial.inv (h : s.Initial) : FlowInv [] s := by
  have heph : s.eph = reinitLog s.generation s.mapStore := by
    rw [h.log]
    exact h.eph
  apply AtStart.inv ⟨h.membrane, heph, h.h2g, h.g2h⟩
  constructor
  · rw [h.log]
    rfl
  · rw [h.log]
    exact List.nodup_nil
  · intro d hd
    rw [h.deliveries] at hd
    cases hd

theorem FlowInv.step {event : FlowEvent} (hs : FlowInv [] s)
    (hok : ¬ ReplaysDanglingCall s event) (hstep : s.step isStorable event = some t) :
    FlowInv [] t := by
  cases event with
  | restart eager =>
    simp only [Flow.step] at hstep
    split at hstep
    · cases hstep
    · have hspec : Wp (restartGuest isStorable eager) (fun _ t => FlowInv [] t)
        (fun _ t => FlowInv [] t) s := restartGuest_spec hs
      cases hrun : restartGuest isStorable eager s with
      | ok guestArgs next =>
        rw [hrun] at hstep
        cases hstep
        exact (wp_of_ok hspec hrun).frame ⟨rfl, rfl⟩ rfl rfl rfl rfl rfl
      | error problem next =>
        rw [hrun] at hstep
        cases hstep
        have hinv := wp_of_error hspec hrun
        exact hinv
  | guestCalls m guestTarget optVerb guestArgs reply =>
    simp only [Flow.step] at hstep
    split at hstep
    · cases hstep
    case isFalse hguard =>
      cases hstep
      apply finalState_of_wp
      apply wp_mono (guestMethod_spec hs ?_ hok)
      · exact fun _ _ ht => ht
      · exact fun _ _ he => he.elim
      · intro hlive
        by_contra hno
        exact hguard ⟨hlive, Bool.not_eq_true _ ▸ hno⟩
  | guestReturns =>
    simp only [Flow.step] at hstep
    split at hstep
    · cases hstep
      exact (finalState_of_wp (registerGuestResult_spec hs)).frame ⟨rfl, rfl⟩ rfl rfl rfl rfl rfl
    · cases hstep
  | guestSends m =>
    simp only [Flow.step] at hstep
    split at hstep
    · cases hstep
    · cases hstep
      exact finalState_of_wp (panic_inv hs.sound _)
  | guestSettles m settlement =>
    simp only [Flow.step] at hstep
    split at hstep
    · cases hstep
    · cases hstep
      exact finalState_of_wp (guestSettles_spec hs settlement)
  | wakeMembrane m =>
    simp only [Flow.step] at hstep
    split at hstep
    · cases hstep
    · cases hstep
      exact finalState_of_wp (membraneWake_spec hs)
  | vowSettled m i settlement =>
    simp only [Flow.step] at hstep
    split at hstep
    · cases hstep
    · split at hstep
      · cases hstep
      case h_2 membrane hm =>
      split at hstep
      · cases hstep
      case h_2 hVow promiseKey hwatcher =>
      split at hstep
      case isFalse => cases hstep
      case isTrue hready =>
        cases hstep
        have hplace : (AsyncFlow.takeWatcher i s).membrane =
            some { membrane with watchers := membrane.watchers.eraseIdx i } := by
          rw [AsyncFlow.takeWatcher, hm]
          rfl
        apply finalState_of_wp
        apply settleVow_spec hs.takeWatcher hplace
        · exact hs.coherent.watchers membrane hm _ (List.mem_of_getElem? hwatcher)
        · exact hready.2
  | newIncarnation =>
    simp only [Flow.step] at hstep
    split at hstep
    · cases hstep
    · cases hstep
      exact AtStart.inv ⟨rfl, rfl, rfl, rfl⟩ (hs.sound.same ⟨rfl, rfl⟩)

/-- In every run in which no guest is replayed from a call that ends the log, the log
keeps its grammar, settles each vow at most once, and the guest is told the logged
outcome of each of its calls. -/
theorem replay_log_sound
    (h : (flowSystem isStorable).Reachable (fun s e => ¬ ReplaysDanglingCall s e) s) :
    ReplayLogSound s := by
  have hinv : FlowInv [] s := by
    apply h.invariant
    · exact fun _ hinit => Flow.Initial.inv hinit
    · exact fun _ _ _ hs hok hstep => hs.step hok hstep
  exact hinv.sound

theorem exists_singleton_iff {α : Type} {l : List α} {p : α → Bool} :
    l.head?.any p = true ∧ l.length = 1 ↔ ∃ a, l = [a] ∧ p a = true := by
  constructor
  · rintro ⟨hany, hlen⟩
    obtain ⟨a, rfl⟩ := List.length_eq_one_iff.mp hlen
    exact ⟨a, rfl, hany⟩
  · rintro ⟨a, rfl, ha⟩
    exact ⟨ha, rfl⟩

instance decidableOnlyElement {α : Type} (l : List α) (p : α → Bool) :
    Decidable (∃ a, l = [a] ∧ p a = true) :=
  decidable_of_iff _ exists_singleton_iff

instance (flow : Flow) (event : FlowEvent) : Decidable (ReplaysDanglingCall flow event) :=
  match event with
  | .guestCalls m guestTarget optVerb guestArgs _ =>
    inferInstanceAs (Decidable (flow.stopped m = false ∧ ∃ entry,
      flow.rest.dropWhile (fun e => !entryIsVisible e) = [entry] ∧
      equatesCall flow.g2h guestTarget optVerb guestArgs flow.eph.index entry = true))
  | .restart _ | .guestReturns | .guestSends _ | .guestSettles _ _ | .wakeMembrane _
  | .vowSettled _ _ _ | .newIncarnation => inferInstanceAs (Decidable False)

/-- An activation with one argument, a host object. -/
def callerFlow : Flow where
  activationArgs := ⟨"", [.cap (.remotable 0)]⟩
  mapStore := []
  outcomeVow := 0
  outcome := none
  isDone := false
  failure := none
  eagerWaker := false
  forOutcomeVow := true
  generation := 0
  eph := reinitLog 0 []
  g2h := ∅
  h2g := ∅
  membrane := none
  nextGuest := 0
  nextMembrane := 0
  starting := false
  deliveries := []

/-- Every capability is durable. -/
def allDurable : HostCap → Bool := fun _ => true

/-- A guest calls its argument and gets a vow, which is fulfilled; after an upgrade the
call is replayed. -/
def upgradedRun : List FlowEvent :=
  [.restart true,
    .guestCalls 0 (.wrapper 0) (some "getVow") ⟨"[]", []⟩ (.returned ⟨"", [.cap (.vow 7)]⟩),
    .guestReturns,
    .vowSettled 0 0 (.fulfilled ⟨"3", []⟩),
    .newIncarnation,
    .restart true,
    .guestCalls 1 (.wrapper 3) (some "getVow") ⟨"[]", []⟩ (.threw ⟨"", []⟩),
    .guestReturns,
    .wakeMembrane 1]

theorem upgraded_run_sound :
    ∃ s, visible s.mapStore =
        [.checkCall (.remotable 0) (some "getVow") ⟨"[]", []⟩ 0,
          .doReturn 0 ⟨"", [.cap (.vow 7)]⟩, .doFulfill 7 ⟨"3", []⟩] ∧
      s.deliveries.length = 2 ∧ ReplayLogSound s := by
  have hrun : ((flowSystem allDurable).runWhile (fun s e => ¬ ReplaysDanglingCall s e)
      callerFlow upgradedRun).any (fun s => decide (visible s.mapStore =
        [.checkCall (.remotable 0) (some "getVow") ⟨"[]", []⟩ 0,
          .doReturn 0 ⟨"", [.cap (.vow 7)]⟩, .doFulfill 7 ⟨"3", []⟩] ∧
      s.deliveries.length = 2)) = true := by
    decide +kernel
  obtain ⟨s, hrun, hend⟩ := (Option.any_eq_true _ _).mp hrun
  obtain ⟨hlog, hdeliveries⟩ := of_decide_eq_true hend
  have hinit : callerFlow.Initial := ⟨rfl, rfl, rfl, rfl, rfl, rfl, rfl, rfl, rfl⟩
  exact ⟨s, hlog, hdeliveries, replay_log_sound (.of_runWhile (.init hinit) hrun)⟩

/-- Only the host object of the argument is durable. -/
def onlyArgumentDurable : HostCap → Bool
  | .remotable id => decide (id = 0)
  | _ => false

/-- The guest calls its argument; the result is not durable, and the flow panics. The
flow is restarted, and the guest calls twice. -/
def unstorableResultRun : List FlowEvent :=
  [.restart true,
    .guestCalls 0 (.wrapper 0) (some "getHelper") ⟨"[]", []⟩
      (.returned ⟨"", [.cap (.remotable 1)]⟩),
    .guestReturns,
    .restart true,
    .guestCalls 1 (.wrapper 2) (some "getHelper") ⟨"[]", []⟩ (.returned ⟨"1", []⟩),
    .guestCalls 1 (.wrapper 2) (some "getCount") ⟨"[]", []⟩ (.returned ⟨"1", []⟩)]

theorem dangling_call_replayed :
    ∃ s, (flowSystem onlyArgumentDurable).Reachable TransitionSystem.anyStep s ∧
      visible s.mapStore =
        [.checkCall (.remotable 0) (some "getHelper") ⟨"[]", []⟩ 0,
          .checkCall (.remotable 0) (some "getCount") ⟨"[]", []⟩ 1, .doReturn 1 ⟨"1", []⟩] ∧
      ¬ ReplayLogSound s := by
  have hrun : ((flowSystem onlyArgumentDurable).runWhile TransitionSystem.anyStep callerFlow
      unstorableResultRun).map (fun s => visible s.mapStore) = some
        [.checkCall (.remotable 0) (some "getHelper") ⟨"[]", []⟩ 0,
          .checkCall (.remotable 0) (some "getCount") ⟨"[]", []⟩ 1, .doReturn 1 ⟨"1", []⟩] := by
    decide +kernel
  obtain ⟨s, hrun, hlog⟩ := Option.map_eq_some_iff.mp hrun
  have hinit : callerFlow.Initial := ⟨rfl, rfl, rfl, rfl, rfl, rfl, rfl, rfl, rfl⟩
  refine ⟨s, .of_runWhile (.init hinit) hrun, hlog, ?_⟩
  intro hsound
  have hgrammar := hsound.grammar
  rw [hlog] at hgrammar
  revert hgrammar
  decide

end Runs

end AgoricSdk.AsyncFlow
