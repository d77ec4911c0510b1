import AgoricSdk.AsyncFlow.ReplayGrammar

/-!
One call of the guest. Its entry and the one of its outcome are consumed or pushed
together, unless a panic comes between them, and the guest is told the outcome
that stands in the log.
-/

namespace AgoricSdk.AsyncFlow

open StateProgram

section Calls

variable {isStorable : HostCap → Bool} {s t : Flow} {callIndex : Nat}

/-- In the middle of a call: its entry was consumed, and after it the given ones. -/
structure Called (callIndex : Nat) (tail : List LogEntry) (s : Flow) (membrane : Membrane) :
    Prop where
  inPlace : s.membrane = some membrane
  callStack : membrane.callStack = [callIndex]
  sound : ReplayLogSound s
  cursor : Cursor s
  coherent : Coherent s
  consumed : ∃ log target verb args, Paired log ∧ log.length = callIndex ∧
    visible s.consumed = log ++ .checkCall target verb args callIndex :: tail
  settled : ∀ v ∈ settledVows (visible s.consumed), ∃ key,
    s.h2g.lookup (.vow v) = some key ∧ membrane.guestPromiseMap.lookup key = some .settled

/-- The log has the call and the outcome that the guest is told. -/
structure Told (callIndex : Nat) (o : Outcome) (s : Flow) : Prop where
  call : ∃ target verb args,
    (visible s.mapStore)[callIndex]? = some (.checkCall target verb args callIndex)
  outcome : ∃ entry, (visible s.mapStore)[callIndex + 1]? = some entry ∧
    OutcomeEntry s.h2g callIndex entry o

/-- How a call ends that the guest is told of. -/
structure CallDone (callIndex : Nat) (o : Outcome) (m : Nat) (deliveries : List Delivery)
    (t : Flow) : Prop where
  inv : FlowInv [] t
  told : Told callIndex o t
  membrane : t.membrane.map (·.id) = some m
  deliveries : t.deliveries = deliveries

theorem visible_getElem (s : Flow) {i : Nat} {entry : LogEntry}
    (h : (visible s.consumed)[i]? = some entry) : (visible s.mapStore)[i]? = some entry := by
  have hsplit : visible s.mapStore = visible s.consumed ++ visible s.rest := by
    rw [← visible_append]
    exact congrArg visible (List.take_append_drop ..).symm
  obtain ⟨hlt, -⟩ := List.getElem?_eq_some_iff.mp h
  rw [hsplit, List.getElem?_append_left hlt]
  exact h

/-- The flow after the interpreter of a call was left. -/
def Flow.unnested (s : Flow) (membrane : Membrane) : Flow :=
  { s with membrane := some { membrane with callStack := [], unnestFlag := true } }

theorem Called.unnested {entry : LogEntry} {membrane : Membrane}
    (h : Called callIndex [entry] s membrane) (hentry : isOutcomeOf callIndex entry = true) :
    FlowInv [] (s.unnested membrane) where
  sound := h.sound.same ⟨rfl, rfl⟩
  cursor := ⟨h.cursor.le, h.cursor.index, h.cursor.replayDone, h.cursor.initialPush⟩
  coherent := ⟨h.coherent.h2g, h.coherent.g2h,
    fun membrane' hm => by
      cases hm
      exact h.coherent.promises membrane h.inPlace,
    fun membrane' hm => by
      cases hm
      exact h.coherent.watchers membrane h.inPlace⟩
  inStep := fun membrane' hm => by
    cases hm
    obtain ⟨log, target, verb, args, hpaired, rfl, hconsumed⟩ := h.consumed
    refine ⟨rfl, ?_, h.settled⟩
    show Paired (visible s.consumed)
    rw [hconsumed]
    exact hpaired.call target verb args hentry

theorem unnestInterpreter_spec {membrane : Membrane} (hm : s.membrane = some membrane)
    (hstack : membrane.callStack = [callIndex]) (k : Nat) :
    Wp (unnestInterpreter k)
      (fun _ t => k = callIndex ∧ t = s.unnested membrane)
      (fun _ t => SameLog s t) s := by
  unfold unnestInterpreter
  rw [wp_bind, wp_get, hm]
  dsimp only
  rw [hstack]
  simp only [modifyMembrane, wp_bind, wp_modify]
  apply wp_ite
  · intro hk
    refine ⟨hk.symm, ?_⟩
    simp [Flow.unnested, hm]
  · intro _
    exact ⟨rfl, rfl⟩

theorem outcome_spec {entry : LogEntry} {membrane : Membrane} {k : Nat} {value : HostValue}
    {wrap : GuestValue → Outcome} (h : Called callIndex [entry] s membrane)
    (hentry : k = callIndex → isOutcomeOf callIndex entry = true)
    (hwrap : k = callIndex → ∀ h2g g, Image h2g value g →
      OutcomeEntry h2g callIndex entry (wrap g)) :
    Wp (unnestInterpreter k >>= fun _ => hostToGuest isStorable value >>= fun g => pure (wrap g))
      (fun o t => CallDone callIndex o membrane.id s.deliveries t ∧
        t.membrane.map (·.unnestFlag) = some true)
      (fun _ t => ReplayLogSound t) s := by
  rw [wp_bind]
  apply wp_mono (unnestInterpreter_spec h.inPlace h.callStack k)
  · rintro _ _ ⟨hk, rfl⟩
    have hinv := h.unnested (hentry hk)
    rw [wp_bind]
    apply wp_mono (hostToGuest_spec hinv.coherent value)
    · rintro g t ⟨hconv, ht, hg⟩
      have hinvt := hinv.converts hconv ht
      have hrel := hconv.membrane
      generalize hm : t.membrane = m at hrel
      cases hrel with
      | @some _ membrane' hgrows =>
        obtain ⟨log, target, verb, args, hpaired, hlen, hconsumed⟩ := h.consumed
        have hconsumedt : visible t.consumed =
            log ++ .checkCall target verb args callIndex :: [entry] := by
          rw [hconv.consumed]
          exact hconsumed
        refine ⟨⟨hinvt, ⟨⟨target, verb, args, ?_⟩, entry, ?_, hwrap hk _ _ hg⟩, ?_, ?_⟩, ?_⟩
        · apply visible_getElem
          rw [hconsumedt, ← hlen, List.getElem?_append_right (Nat.le_refl _), Nat.sub_self]
          rfl
        · apply visible_getElem
          rw [hconsumedt, ← hlen, List.getElem?_append_right (Nat.le_add_right _ 1),
            Nat.add_sub_cancel_left]
          rfl
        · rw [hm, hgrows.frame]
          rfl
        · rw [hconv.frame]
          rfl
        · rw [hm, hgrows.frame]
          rfl
    · rintro _ t ⟨hconv, ht⟩
      exact (hinv.converts hconv ht).sound
  · exact fun _ _ hsame => h.sound.same hsame

theorem nestDispatch_spec {entry : LogEntry} {membrane : Membrane}
    (h : Called callIndex [entry] s membrane) :
    Wp (nestDispatch isStorable entry)
      (fun o t => CallDone callIndex o membrane.id s.deliveries t ∧
        t.membrane.map (·.unnestFlag) = some true)
      (fun _ t => ReplayLogSound t) s := by
  cases entry with
  | doReturn k value =>
    apply outcome_spec h
    · exact fun hk => decide_eq_true hk
    · rintro rfl h2g g hg
      exact .doReturn hg
  | doThrow k value =>
    apply outcome_spec h
    · exact fun hk => decide_eq_true hk
    · rintro rfl h2g g hg
      exact .doThrow hg
  | startGeneration | doFulfill | doReject | checkCall => exact h.sound

theorem interpretNest_spec {entry : LogEntry} {membrane : Membrane}
    (h : Called callIndex [entry] s membrane) :
    Wp (interpretNest isStorable entry)
      (fun o t => CallDone callIndex o membrane.id s.deliveries t ∧
        t.membrane.map (·.unnestFlag) = some true)
      (fun _ t => ReplayLogSound t) s := by
  unfold interpretNest
  apply wp_mono (orPanic_spec (nestDispatch_spec h))
  · exact fun _ _ hq => hq
  · exact fun _ _ he => he.2

theorem CallDone.flag {o : Outcome} {m : Nat} {deliveries : List Delivery} {flag : Bool}
    (h : CallDone callIndex o m deliveries s) :
    CallDone callIndex o m deliveries
      { s with membrane := s.membrane.map fun membrane => { membrane with unnestFlag := flag } } where
  inv := {
    sound := h.inv.sound.same ⟨rfl, rfl⟩
    cursor := ⟨h.inv.cursor.le, h.inv.cursor.index, h.inv.cursor.replayDone,
      h.inv.cursor.initialPush⟩
    coherent := ⟨h.inv.coherent.h2g, h.inv.coherent.g2h,
      fun membrane' hm => by
        obtain ⟨membrane, hmembrane, rfl⟩ := Option.map_eq_some_iff.mp hm
        exact h.inv.coherent.promises membrane hmembrane,
      fun membrane' hm => by
        obtain ⟨membrane, hmembrane, rfl⟩ := Option.map_eq_some_iff.mp hm
        exact h.inv.coherent.watchers membrane hmembrane⟩
    inStep := fun membrane' hm => by
      obtain ⟨membrane, hmembrane, rfl⟩ := Option.map_eq_some_iff.mp hm
      obtain ⟨hstack, hpaired, hsettled⟩ := h.inv.inStep membrane hmembrane
      exact ⟨hstack, hpaired, hsettled⟩ }
  told := ⟨h.told.call, h.told.outcome⟩
  membrane := by
    rw [← h.membrane]
    exact (Option.map_map ..).symm ▸ rfl
  deliveries := h.deliveries

theorem Called.reads {entry : LogEntry} {membrane : Membrane} {u : Flow}
    (h : Called callIndex [] s membrane) (hreads : Reads s (visible [entry]) u)
    (hvisible : entryIsVisible entry = true) (hentry : settledVow entry = none) :
    Called callIndex [entry] u membrane where
  inPlace := by
    rw [hreads.frame]
    exact h.inPlace
  callStack := h.callStack
  sound := h.sound.same hreads.sameLog
  cursor := hreads.cursor
  coherent := hreads.coherent h.coherent
  consumed := by
    obtain ⟨log, target, verb, args, hpaired, hlen, hconsumed⟩ := h.consumed
    refine ⟨log, target, verb, args, hpaired, hlen, ?_⟩
    rw [hreads.consumed, hconsumed]
    simp [visible, List.filter, hvisible]
  settled := fun v hv => by
    have hh2g : u.h2g = s.h2g := by rw [hreads.frame]
    rw [hh2g]
    apply h.settled
    rw [hreads.consumed] at hv
    simpa [settledVows, visible, List.filter, hvisible, hentry] using hv

theorem nestLoop_spec {fuel : Nat} {membrane : Membrane} (h : Called callIndex [] s membrane)
    (hreplaying : s.isReplaying = true) (hfuel : 0 < fuel) :
    Wp (nestLoop isStorable fuel)
      (fun o t => ∃ outcome, o = some outcome ∧
        CallDone callIndex outcome membrane.id s.deliveries t)
      (fun _ t => ReplayLogSound t) s := by
  obtain ⟨fuel, rfl⟩ : ∃ n, fuel = n + 1 := ⟨fuel - 1, by omega⟩
  obtain ⟨entry, rest, hrest⟩ := rest_cons hreplaying
  obtain ⟨hreads, -⟩ := h.cursor.advanced hrest
  have hnest : Wp (interpretNest isStorable entry)
      (fun o t => CallDone callIndex o membrane.id s.deliveries t ∧
        t.membrane.map (·.unnestFlag) = some true)
      (fun _ t => ReplayLogSound t) (s.advanced entry) := by
    have hsound := h.sound.same hreads.sameLog
    cases entry with
    | doReturn k value => exact interpretNest_spec (h.reads hreads rfl rfl)
    | doThrow k value => exact interpretNest_spec (h.reads hreads rfl rfl)
    | startGeneration | doFulfill | doReject | checkCall =>
      refine wp_mono (orPanic_spec (Q := fun _ _ => False) ?_) (fun _ _ hq => hq.elim)
        fun _ _ he => he.2
      exact hsound
  unfold nestLoop
  have hinPlace : s.membrane.isSome = true := by
    rw [h.inPlace]
    rfl
  rw [wp_bind, wp_get, if_pos ⟨hreplaying, hinPlace⟩, wp_bind,
    wp_of_run (nextUnfilteredEntry_run hrest), wp_bind]
  apply wp_mono hnest
  · rintro outcome t ⟨hdone, hflag⟩
    rw [wp_bind, wp_get, if_pos hflag]
    exact ⟨outcome, rfl, hdone.flag⟩
  · exact fun _ _ he => he

theorem nestLoop_idle {fuel : Nat} (hreplaying : s.isReplaying = false) :
    nestLoop isStorable fuel s = .ok none
      { s with membrane := s.membrane.map fun membrane => { membrane with unnestFlag := false } } := by
  cases fuel with
  | zero => rfl
  | succ fuel =>
    unfold nestLoop
    rw [bind_run get_run, if_neg (by rw [hreplaying]; simp)]
    rfl

theorem logDo_spec {entry : LogEntry} {membrane : Membrane} (h : Called callIndex [] s membrane)
    (hreplaying : s.isReplaying = false) (hentry : isOutcomeOf callIndex entry = true) :
    Wp (logDo isStorable entry)
      (fun o t => CallDone callIndex o membrane.id s.deliveries t)
      (fun _ t => ReplayLogSound t) s := by
  obtain ⟨hvisible, hsettled⟩ : visible [entry] = [entry] ∧ settledVow entry = none := by
    cases entry with
    | doReturn | doThrow => exact ⟨rfl, rfl⟩
    | startGeneration | doFulfill | doReject | checkCall => cases hentry
  obtain ⟨log, target, verb, args, hpaired, rfl, hconsumed⟩ := h.consumed
  have hstore : visible s.mapStore = log ++ [.checkCall target verb args log.length] := by
    rw [← consumed_of_not_replaying hreplaying]
    exact hconsumed
  have hdone := hpaired.call target verb args hentry
  unfold logDo
  rw [wp_bind]
  apply wp_mono (pushEntry_spec h.cursor.initialPush hreplaying)
  · rintro _ t ⟨before, hbefore, hpush⟩
    have hnew : visible (before ++ [entry]) = [entry] := by
      rw [visible_append, hbefore, hvisible]
      rfl
    obtain ⟨hcursor, hreplaying'⟩ := hpush.cursor h.cursor hreplaying
    have hlog : visible s.mapStore ++ visible (before ++ [entry]) =
        log ++ [.checkCall target verb args log.length, entry] := by
      rw [hstore, hnew, List.append_assoc]
      rfl
    have hsound : ReplayLogSound t := by
      apply hpush.sound h.sound
      · rw [hlog]
        exact hdone.inGrammar
      · simp [hnew, settledVows, hsettled]
    have hconsumed' : visible t.consumed =
        log ++ [.checkCall target verb args log.length, entry] := by
      rw [consumed_of_not_replaying hreplaying', hpush.visible, hlog]
    have hcalled : Called log.length [entry] t membrane := {
      inPlace := by
        rw [hpush.frame]
        exact h.inPlace
      callStack := h.callStack
      sound := hsound
      cursor := hcursor
      coherent := hpush.coherent h.coherent
      consumed := ⟨log, target, verb, args, hpaired, rfl, hconsumed'⟩
      settled := fun v hv => by
        have hh2g : t.h2g = s.h2g := by rw [hpush.frame]
        rw [hh2g]
        apply h.settled
        rw [hconsumed'] at hv
        rw [hconsumed]
        simpa [settledVows, hsettled] using hv }
    have hdeliveries : t.deliveries = s.deliveries := by rw [hpush.frame]
    apply wp_mono (interpretNest_spec hcalled)
    · rintro o u ⟨hcall, -⟩
      rw [← hdeliveries]
      exact hcall
    · exact fun _ _ he => he
  · rintro _ t ⟨before, hbefore, hpush⟩
    apply hpush.sound h.sound
    · rw [hbefore, List.append_nil]
      exact h.sound.grammar
    · rw [hbefore]
      rfl

theorem Called.converts {membrane : Membrane} (h : Called callIndex [] s membrane)
    (hconv : Converts s t) (ht : Coherent t) :
    ∃ membrane', Called callIndex [] t membrane' ∧ membrane'.id = membrane.id := by
  have hrel := hconv.membrane
  rw [h.inPlace] at hrel
  generalize hm : t.membrane = m at hrel
  cases hrel with
  | @some _ membrane' hgrows =>
    refine ⟨membrane', ⟨hm, ?_, h.sound.same hconv.sameLog, hconv.cursor h.cursor, ht, ?_, ?_⟩, ?_⟩
    · rw [hgrows.frame]
      exact h.callStack
    · rw [hconv.consumed]
      exact h.consumed
    · intro v hv
      rw [hconv.consumed] at hv
      obtain ⟨key, hkey, hstatus⟩ := h.settled v hv
      exact ⟨key, hconv.h2g _ _ hkey, hgrows.settled key hstatus⟩
    · rw [hgrows.frame]

theorem performCall_spec {membrane : Membrane} (h : Called callIndex [] s membrane)
    (hreplaying : s.isReplaying = false) (reply : HostReply) :
    Wp (performCall isStorable callIndex reply)
      (fun o t => CallDone callIndex o membrane.id s.deliveries t)
      (fun _ t => ReplayLogSound t) s := by
  have hlater : ∀ {t : Flow} {entry : LogEntry}, Converts s t → Coherent t →
      isOutcomeOf callIndex entry = true → Wp (logDo isStorable entry)
        (fun o t => CallDone callIndex o membrane.id s.deliveries t)
        (fun _ t => ReplayLogSound t) t := by
    intro t entry hconv ht hentry
    obtain ⟨membrane', hcalled, hid⟩ := h.converts hconv ht
    have hreplaying' : t.isReplaying = false := by
      rw [hconv.frame]
      exact hreplaying
    have hdeliveries : t.deliveries = s.deliveries := by rw [hconv.frame]
    rw [← hid, ← hdeliveries]
    exact logDo_spec hcalled hreplaying' hentry
  cases reply with
  | threw hostProblem => exact hlater (.refl s) h.coherent (decide_eq_true rfl)
  | returned hostResult =>
    simp only [performCall, wp_bind, wp_attempt]
    apply wp_mono (hostToGuest_spec h.coherent hostResult)
    · rintro g t ⟨hconv, ht, -⟩
      exact hlater hconv ht (decide_eq_true rfl)
    · rintro problem t ⟨hconv, ht⟩
      exact hlater hconv ht (decide_eq_true rfl)

theorem guestLeafToHost_reads (leaf : Leaf GuestCap) :
    Wp (guestLeafToHost leaf) (fun _ t => t = s) (fun _ t => t = s) s := by
  cases leaf with
  | cap g =>
    simp only [guestLeafToHost, guestCapToHost, wp_map, wp_bind, wp_get]
    cases s.g2h.lookup g <;> exact rfl
  | error name => exact rfl

theorem guestToHost_reads (specimen : GuestValue) :
    Wp (guestToHost specimen) (fun _ t => t = s) (fun _ t => t = s) s := by
  unfold guestToHost
  rw [wp_bind]
  have hleaves : Wp (specimen.leaves.mapM guestLeafToHost)
      (fun ys t => t = s ∧ List.Forall₂ (fun _ _ => True) specimen.leaves ys)
      (fun _ t => t = s ∧ True) s :=
    wp_mapM_reads fun leaf _ =>
      wp_mono (guestLeafToHost_reads leaf) (fun _ _ h => ⟨h, trivial⟩) fun _ _ h => ⟨h, trivial⟩
  exact wp_mono hleaves (fun _ _ h => h.1) fun _ _ h => h.1

theorem guestCapToHost_reads (g : GuestCap) :
    Wp (guestCapToHost g) (fun _ t => t = s) (fun _ t => t = s) s := by
  simp only [guestCapToHost, wp_bind, wp_get]
  cases s.g2h.lookup g <;> exact rfl

theorem Called.of_call {membrane : Membrane} {log : List LogEntry} {target : HostCap}
    {verb : Option String} {args : HostValue} (hinPlace : s.membrane = some membrane)
    (hcallStack : membrane.callStack = [callIndex]) (hsound : ReplayLogSound s)
    (hcursor : Cursor s) (hcoherent : Coherent s) (hpaired : Paired log)
    (hlen : log.length = callIndex)
    (hconsumed : visible s.consumed = log ++ [.checkCall target verb args callIndex])
    (hsettled : ∀ v ∈ settledVows log, ∃ key,
      s.h2g.lookup (.vow v) = some key ∧ membrane.guestPromiseMap.lookup key = some .settled) :
    Called callIndex [] s membrane where
  inPlace := hinPlace
  callStack := hcallStack
  sound := hsound
  cursor := hcursor
  coherent := hcoherent
  consumed := ⟨log, target, verb, args, hpaired, hlen, hconsumed⟩
  settled := fun v hv => by
    apply hsettled
    rw [hconsumed] at hv
    simpa [settledVows, settledVow] using hv

theorem Called.flag {tail : List LogEntry} {membrane : Membrane} {flag : Bool}
    (h : Called callIndex tail s membrane) :
    Called callIndex tail
      { s with membrane := s.membrane.map fun membrane => { membrane with unnestFlag := flag } }
      { membrane with unnestFlag := flag } where
  inPlace := by rw [h.inPlace, Option.map_some]
  callStack := h.callStack
  sound := h.sound.same ⟨rfl, rfl⟩
  cursor := ⟨h.cursor.le, h.cursor.index, h.cursor.replayDone, h.cursor.initialPush⟩
  coherent := ⟨h.coherent.h2g, h.coherent.g2h,
    fun membrane' hm => by
      obtain ⟨membrane, hmembrane, rfl⟩ := Option.map_eq_some_iff.mp hm
      exact h.coherent.promises membrane hmembrane,
    fun membrane' hm => by
      obtain ⟨membrane, hmembrane, rfl⟩ := Option.map_eq_some_iff.mp hm
      exact h.coherent.watchers membrane hmembrane⟩
  consumed := h.consumed
  settled := h.settled

theorem checkCall_of_equates {g2h : Table GuestCap HostCap} {guestTarget : GuestCap}
    {optVerb : Option String} {guestArgs : GuestValue} {entry : LogEntry}
    (h : equatesCall g2h guestTarget optVerb guestArgs callIndex entry = true) :
    ∃ target verb args, entry = .checkCall target verb args callIndex := by
  cases entry with
  | checkCall target verb args index =>
    have hindex : callIndex = index := by
      have hand := (Bool.and_eq_true_iff.mp h).2
      exact of_decide_eq_true hand
    exact ⟨target, verb, args, by rw [hindex]⟩
  | startGeneration | doFulfill | doReject | doReturn | doThrow => cases h

/-- The flow after the interpreter of a call was entered. -/
def Flow.nested (s : Flow) (callIndex : Nat) : Flow :=
  { s with membrane := s.membrane.map fun membrane =>
      { membrane with callStack := callIndex :: membrane.callStack } }

theorem called_nested {membrane : Membrane} {target : HostCap} {verb : Option String}
    {args : HostValue} (hs : FlowInv [] s) (hm : s.membrane = some membrane)
    (hindex : callIndex = s.eph.index) (htm : t.membrane = s.membrane) (hth2g : t.h2g = s.h2g)
    (hsound : ReplayLogSound t) (hcursor : Cursor t) (hcoherent : Coherent t)
    (hconsumed : visible t.consumed =
      visible s.consumed ++ [.checkCall target verb args callIndex]) :
    Called callIndex [] (t.nested callIndex) { membrane with callStack := [callIndex] } := by
  obtain ⟨hstack, hpaired, hsettled⟩ := hs.inStep membrane hm
  have hplace : (t.nested callIndex).membrane =
      some { membrane with callStack := [callIndex] } := by
    unfold Flow.nested
    rw [htm, hm, Option.map_some, hstack]
  apply Called.of_call hplace rfl (hsound.same ⟨rfl, rfl⟩)
    ⟨hcursor.le, hcursor.index, hcursor.replayDone, hcursor.initialPush⟩ ?_ hpaired
    (hindex.trans hs.cursor.index).symm hconsumed
  · intro v hv
    show ∃ key, t.h2g.lookup (.vow v) = some key ∧ _
    rw [hth2g]
    exact hsettled v hv
  · exact ⟨hcoherent.h2g, hcoherent.g2h,
      fun membrane' hm' => by
        obtain ⟨membrane, hmembrane, rfl⟩ := Option.map_eq_some_iff.mp hm'
        exact hcoherent.promises membrane hmembrane,
      fun membrane' hm' => by
        obtain ⟨membrane, hmembrane, rfl⟩ := Option.map_eq_some_iff.mp hm'
        exact hcoherent.watchers membrane hmembrane⟩

theorem replayOrPerform_spec {membrane : Membrane} (hs : FlowInv [] s)
    (hm : s.membrane = some membrane) (hindex : callIndex = s.eph.index)
    (guestTarget : GuestCap) (optVerb : Option String) (guestArgs : GuestValue)
    (hdangling : ∀ entry, s.rest.dropWhile (fun e => !entryIsVisible e) = [entry] →
      equatesCall s.g2h guestTarget optVerb guestArgs callIndex entry = false)
    (reply : HostReply) :
    Wp (replayOrPerform isStorable guestTarget optVerb guestArgs callIndex reply)
      (fun o t => ∃ outcome, o = some outcome ∧
        CallDone callIndex outcome membrane.id s.deliveries t)
      (fun _ t => ReplayLogSound t) s := by
  unfold replayOrPerform
  rw [wp_bind, wp_get]
  apply wp_ite
  · intro hreplaying
    rw [wp_bind]
    apply wp_mono (nextEntry_spec hs.cursor hreplaying)
    · rintro entry t ⟨hreads, hdrop⟩
      have hsound := hs.sound.same hreads.sameLog
      have hg2h : t.g2h = s.g2h := by rw [hreads.frame]
      simp only [equateCall, wp_bind, wp_get]
      apply wp_ite
      · intro hequates
        obtain ⟨target, verb, args, rfl⟩ := checkCall_of_equates hequates
        have hne : t.rest ≠ [] := by
          intro hnil
          rw [hnil] at hdrop
          have hno := hdangling _ hdrop
          rw [hg2h, hno] at hequates
          cases hequates
        have hmore : t.isReplaying = true := by
          cases hrest : t.rest with
          | nil => exact absurd hrest hne
          | cons next rest => exact isReplaying_of_rest hrest
        have hcalled := called_nested hs hm hindex (by rw [hreads.frame]) (by rw [hreads.frame])
          hsound hreads.cursor (hreads.coherent hs.coherent) hreads.consumed
        have hlength : 0 < t.mapStore.length := by
          have := isReplaying_iff.mp hmore
          omega
        have hdeliveries : t.deliveries = s.deliveries := by rw [hreads.frame]
        rw [wp_pure]
        simp only [nestInterpreter, modifyMembrane, wp_bind, wp_modify, wp_get]
        rw [← hdeliveries]
        exact wp_mono (nestLoop_spec hcalled hmore hlength) (fun _ _ h => h) fun _ _ h => h
      · intro _
        exact hsound
    · exact fun _ _ hsame => hs.sound.same hsame
  · intro hreplaying
    rw [Bool.not_eq_true] at hreplaying
    rw [wp_bind]
    apply wp_mono (guestCapToHost_reads guestTarget)
    · rintro hostTarget t rfl
      rw [wp_bind]
      apply wp_mono (guestToHost_reads guestArgs)
      · rintro hostArgs t rfl
        rw [wp_bind]
        apply wp_mono (pushEntry_spec hs.cursor.initialPush hreplaying)
        · rintro _ u ⟨before, hbefore, hpush⟩
          obtain ⟨hcursor, hreplaying'⟩ := hpush.cursor hs.cursor hreplaying
          have hnew : visible (before ++ [.checkCall hostTarget optVerb hostArgs callIndex]) =
              [.checkCall hostTarget optVerb hostArgs callIndex] := by
            rw [visible_append, hbefore]
            rfl
          have hstore := consumed_of_not_replaying hreplaying
          obtain ⟨-, hpaired, -⟩ := hs.inStep membrane hm
          have hlen := hindex.trans hs.cursor.index
          rw [hstore] at hpaired hlen
          have hsound : ReplayLogSound u := by
            apply hpush.sound hs.sound
            · rw [hnew, hlen]
              exact hpaired.inGrammar_dangling hostTarget optVerb hostArgs
            · rw [hnew]
              rfl
          have hconsumed : visible u.consumed =
              visible t.consumed ++ [.checkCall hostTarget optVerb hostArgs callIndex] := by
            rw [consumed_of_not_replaying hreplaying', hpush.visible, hnew, hstore]
          have hcalled := called_nested hs hm hindex (by rw [hpush.frame]) (by rw [hpush.frame])
            hsound hcursor (hpush.coherent hs.coherent) hconsumed
          have hdeliveries : u.deliveries = t.deliveries := by rw [hpush.frame]
          simp only [nestInterpreter, modifyMembrane, wp_bind, wp_modify, wp_get, wp_map]
          have hidle : (u.nested callIndex).isReplaying = false := hreplaying'
          apply (wp_of_run (nestLoop_idle hidle)).mpr
          rw [← hdeliveries]
          apply wp_mono (performCall_spec hcalled.flag hreplaying' reply)
          · exact fun o v hdone => ⟨o, rfl, hdone⟩
          · exact fun _ _ he => he
        · rintro _ u ⟨before, hbefore, hpush⟩
          apply hpush.sound hs.sound
          · rw [hbefore, List.append_nil]
            exact hs.sound.grammar
          · rw [hbefore]
            rfl
      · rintro _ t rfl
        exact hs.sound
    · rintro _ t rfl
      exact hs.sound

theorem FlowInv.deliver {stack : List Nat} (hs : FlowInv stack s) {d : Delivery}
    (hd : d.Faithful) : FlowInv stack { s with deliveries := s.deliveries ++ [d] } where
  sound := {
    grammar := hs.sound.grammar
    settledOnce := hs.sound.settledOnce
    deliveries := fun d' hd' => by
      rcases List.mem_append.mp hd' with hold | hnew
      · exact hs.sound.deliveries d' hold
      · rw [List.mem_singleton.mp hnew]
        exact hd }
  cursor := ⟨hs.cursor.le, hs.cursor.index, hs.cursor.replayDone, hs.cursor.initialPush⟩
  coherent := ⟨hs.coherent.h2g, hs.coherent.g2h, hs.coherent.promises, hs.coherent.watchers⟩
  inStep := fun membrane hm => by
    obtain ⟨hstack, hpaired, hsettled⟩ := hs.inStep membrane hm
    exact ⟨hstack, hpaired, hsettled⟩

theorem membrane_of_not_stopped {m : Nat} (h : s.stopped m = false) :
    ∃ membrane, s.membrane = some membrane ∧ membrane.id = m := by
  have hid : s.membrane.map (·.id) = some m := not_not.mp (of_decide_eq_false h)
  exact Option.map_eq_some_iff.mp hid

theorem guestMethod_spec {m : Nat} {guestTarget : GuestCap} {optVerb : Option String}
    {guestArgs : GuestValue} {reply : HostReply} (hs : FlowInv [] s)
    (htarget : s.stopped m = false → s.g2h.has guestTarget = true)
    (hdangling : ¬ ReplaysDanglingCall s (.guestCalls m guestTarget optVerb guestArgs reply)) :
    Wp (guestMethod isStorable m guestTarget optVerb guestArgs reply)
      (fun _ t => FlowInv [] t) (fun _ _ => False) s := by
  simp only [guestMethod, wp_bind, wp_get, wp_attempt, wp_modify, wp_pure]
  have hcall : Wp (guestCallsHost isStorable m guestTarget optVerb guestArgs reply)
      (fun o t => CallDone s.eph.index o m s.deliveries t)
      (fun _ t => FlowInv [] t ∧ t.stopped m = true) s := by
    unfold guestCallsHost
    rw [wp_bind, wp_get]
    apply wp_ite
    · intro hrefused
      refine ⟨hs, ?_⟩
      rcases hrefused with hstopped | hno
      · exact hstopped
      · by_contra hlive
        rw [htarget (Bool.not_eq_true _ ▸ hlive)] at hno
        cases hno
    · intro hlive
      rw [not_or, Bool.not_eq_true] at hlive
      obtain ⟨membrane, hm, rfl⟩ := membrane_of_not_stopped hlive.1
      rw [wp_bind]
      have hno : ∀ entry, s.rest.dropWhile (fun e => !entryIsVisible e) = [entry] →
          equatesCall s.g2h guestTarget optVerb guestArgs s.eph.index entry = false := by
        intro entry hentry
        rw [Bool.eq_false_iff]
        intro hequates
        exact hdangling ⟨hlive.1, entry, hentry, hequates⟩
      apply wp_mono (orPanic_spec (replayOrPerform_spec hs hm rfl guestTarget optVerb guestArgs
        hno reply))
      · rintro _ t ⟨o, rfl, hdone⟩
        exact hdone
      · rintro _ t ⟨hstart, hsound⟩
        refine ⟨hstart.inv hsound, ?_⟩
        simp [Flow.stopped, hstart.membrane]
  apply wp_mono hcall
  · intro o t hdone
    apply hdone.inv.deliver
    obtain ⟨⟨target, verb, args, hget⟩, hentry⟩ := hdone.told
    exact ⟨⟨target, verb, args, hget⟩, hentry⟩
  · rintro problem t ⟨hinv, hstopped⟩
    apply hinv.deliver
    show (!t.stopped m) = false
    rw [hstopped]
    rfl

end Calls

end AgoricSdk.AsyncFlow
