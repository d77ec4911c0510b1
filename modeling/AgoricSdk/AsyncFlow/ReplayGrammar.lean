import AgoricSdk.AsyncFlow.Conversions

/-!
The grammar of the replay log, over all runs of a flow. A call of the guest is
logged as a pair of entries, and a panic between the two leaves the first one
alone at the end of the log. As long as no guest is replayed from such an entry,
the log keeps its grammar, settles each vow once, and the guest is told what the
log says.
-/

namespace AgoricSdk.AsyncFlow

open StateProgram

section Grammar

def visible (log : List LogEntry) : List LogEntry := log.filter entryIsVisible

/-- Is this a sequence of settlements and of calls with their outcomes, from the
given index on, but for a last call that may lack its outcome? -/
def inGrammar : Nat → List LogEntry → Bool
  | _, [] => true
  | i, .doFulfill _ _ :: rest => inGrammar (i + 1) rest
  | i, .doReject _ _ :: rest => inGrammar (i + 1) rest
  | i, [.checkCall _ _ _ j] => decide (j = i)
  | i, .checkCall _ _ _ j :: .doReturn k _ :: rest =>
    decide (j = i) && decide (k = i) && inGrammar (i + 2) rest
  | i, .checkCall _ _ _ j :: .doThrow k _ :: rest =>
    decide (j = i) && decide (k = i) && inGrammar (i + 2) rest
  | _, _ => false

def settledVow : LogEntry → Option VowId
  | .doFulfill hostVow _ | .doReject hostVow _ => some hostVow
  | _ => none

def settledVows (log : List LogEntry) : List VowId := log.filterMap settledVow

/-- The entry is the outcome of the call, as told to the guest. -/
inductive OutcomeEntry (h2g : Table HostCap GuestCap) (callIndex : Nat) :
    LogEntry → Outcome → Prop
  | doReturn {hostResult : HostValue} {result : GuestValue} (h : Image h2g hostResult result) :
      OutcomeEntry h2g callIndex (.doReturn callIndex hostResult) (.return_ result)
  | doThrow {hostProblem : HostValue} {problem : GuestValue} (h : Image h2g hostProblem problem) :
      OutcomeEntry h2g callIndex (.doThrow callIndex hostProblem) (.throw_ problem)

/-- The guest was told the outcome that the log has for its call, or the flow had
been stopped. -/
def Delivery.Faithful (d : Delivery) : Prop :=
  match d.answer with
  | .outcome o =>
    (∃ target verb args, d.log[d.callIndex]? = some (.checkCall target verb args d.callIndex)) ∧
      ∃ entry, d.log[d.callIndex + 1]? = some entry ∧
        OutcomeEntry d.hostToGuest d.callIndex entry o
  | .failure _ => d.live = false

structure ReplayLogSound (flow : Flow) : Prop where
  grammar : inGrammar 0 (visible flow.mapStore) = true
  settledOnce : (settledVows (visible flow.mapStore)).Nodup
  deliveries : ∀ d ∈ flow.deliveries, d.Faithful

/-- The entries that the replay has not consumed. -/
def Flow.rest (flow : Flow) : List LogEntry := flow.mapStore.drop flow.eph.unfilteredIndex

/-- A guest call is about to be replayed from an entry that ends the log. -/
def ReplaysDanglingCall (flow : Flow) : FlowEvent → Prop
  | .guestCalls m guestTarget optVerb guestArgs _ =>
    flow.stopped m = false ∧ ∃ entry,
      flow.rest.dropWhile (fun e => !entryIsVisible e) = [entry] ∧
      equatesCall flow.g2h guestTarget optVerb guestArgs flow.eph.index entry = true
  | _ => False

end Grammar

section Paired

/-- Is the entry an outcome of the call of the given index? -/
def isOutcomeOf (callIndex : Nat) : LogEntry → Bool
  | .doReturn i _ | .doThrow i _ => decide (i = callIndex)
  | _ => false

/-- Settlements and calls with their outcomes only. -/
inductive Paired : List LogEntry → Prop
  | nil : Paired []
  | settle {log : List LogEntry} {entry : LogEntry} {v : VowId} (h : Paired log)
      (hentry : settledVow entry = some v) : Paired (log ++ [entry])
  | call {log : List LogEntry} {entry : LogEntry} (h : Paired log) (target : HostCap)
      (verb : Option String) (args : HostValue) (hentry : isOutcomeOf log.length entry = true) :
      Paired (log ++ [.checkCall target verb args log.length, entry])

theorem inGrammar_settle {entry : LogEntry} {v : VowId} (h : settledVow entry = some v) (i : Nat)
    (rest : List LogEntry) : inGrammar i (entry :: rest) = inGrammar (i + 1) rest := by
  cases entry with
  | doFulfill hostVow value => rw [inGrammar]
  | doReject hostVow value => rw [inGrammar]
  | startGeneration | doReturn | doThrow | checkCall => cases h

theorem inGrammar_call {entry : LogEntry} {i : Nat} (h : isOutcomeOf i entry = true)
    (target : HostCap) (verb : Option String) (args : HostValue) (rest : List LogEntry) :
    inGrammar i (.checkCall target verb args i :: entry :: rest) = inGrammar (i + 2) rest := by
  cases entry with
  | doReturn j value =>
    rw [of_decide_eq_true h]
    simp [inGrammar]
  | doThrow j value =>
    rw [of_decide_eq_true h]
    simp [inGrammar]
  | startGeneration | doFulfill | doReject | checkCall => cases h

theorem Paired.inGrammar_append {log : List LogEntry} (h : Paired log) (rest : List LogEntry) :
    inGrammar 0 (log ++ rest) = inGrammar log.length rest := by
  induction h generalizing rest with
  | nil => rfl
  | settle _ hentry ih =>
    rw [List.append_assoc, ih, List.singleton_append, inGrammar_settle hentry, List.length_append,
      List.length_singleton]
  | call _ target verb args hentry ih =>
    rw [List.append_assoc, ih, List.cons_append, List.cons_append, List.nil_append,
      inGrammar_call hentry, List.length_append]
    rfl

theorem Paired.inGrammar {log : List LogEntry} (h : Paired log) : inGrammar 0 log = true := by
  rw [← List.append_nil log, h.inGrammar_append, AsyncFlow.inGrammar]

theorem Paired.inGrammar_dangling {log : List LogEntry} (h : Paired log) (target : HostCap)
    (verb : Option String) (args : HostValue) :
    AsyncFlow.inGrammar 0 (log ++ [.checkCall target verb args log.length]) = true := by
  rw [h.inGrammar_append]
  simp [AsyncFlow.inGrammar]

theorem visible_append (log rest : List LogEntry) :
    visible (log ++ rest) = visible log ++ visible rest :=
  List.filter_append ..

theorem visible_eq_nil {log : List LogEntry} (h : ∀ e ∈ log, entryIsVisible e = false) :
    visible log = [] :=
  List.filter_eq_nil_iff.mpr fun e he => by simp [h e he]

end Paired

section Invariant

/-- The entries already replayed or pushed. -/
def Flow.consumed (s : Flow) : List LogEntry := s.mapStore.take s.eph.unfilteredIndex

/-- The cursor of the log is at a place of the log. -/
structure Cursor (s : Flow) : Prop where
  le : s.eph.unfilteredIndex ≤ s.mapStore.length
  index : s.eph.index = (visible s.consumed).length
  replayDone : s.eph.replayDone = decide (s.mapStore.length ≤ s.eph.unfilteredIndex)
  initialPush : ∀ e ∈ s.eph.initialPush, entryIsVisible e = false

/-- The membrane in place has interpreted what was consumed. -/
structure InStep (stack : List Nat) (s : Flow) (membrane : Membrane) : Prop where
  callStack : membrane.callStack = stack
  paired : Paired (visible s.consumed)
  settled : ∀ v ∈ settledVows (visible s.consumed), ∃ key,
    s.h2g.lookup (.vow v) = some key ∧ membrane.guestPromiseMap.lookup key = some .settled

structure FlowInv (stack : List Nat) (s : Flow) : Prop where
  sound : ReplayLogSound s
  cursor : Cursor s
  coherent : Coherent s
  inStep : ∀ membrane, s.membrane = some membrane → InStep stack s membrane

variable {isStorable : HostCap → Bool} {s t : Flow} {stack : List Nat}

/-- Nothing of the log or of what the guest was told has changed. -/
structure SameLog (s t : Flow) : Prop where
  mapStore : t.mapStore = s.mapStore
  deliveries : t.deliveries = s.deliveries

theorem ReplayLogSound.same (h : ReplayLogSound s) (hsame : SameLog s t) : ReplayLogSound t where
  grammar := by
    rw [hsame.mapStore]
    exact h.grammar
  settledOnce := by
    rw [hsame.mapStore]
    exact h.settledOnce
  deliveries := by
    rw [hsame.deliveries]
    exact h.deliveries

theorem Converts.sameLog (h : Converts s t) : SameLog s t where
  mapStore := by rw [h.frame]
  deliveries := by rw [h.frame]

theorem Converts.consumed (h : Converts s t) : t.consumed = s.consumed := by
  rw [h.frame]
  rfl

theorem Converts.cursor (h : Converts s t) (hs : Cursor s) : Cursor t := by
  rw [h.frame]
  exact ⟨hs.le, hs.index, hs.replayDone, hs.initialPush⟩

theorem FlowInv.converts (hs : FlowInv stack s) (h : Converts s t) (ht : Coherent t) :
    FlowInv stack t where
  sound := hs.sound.same h.sameLog
  cursor := h.cursor hs.cursor
  coherent := ht
  inStep := fun membrane' hm' => by
    have hrel := h.membrane
    rw [hm'] at hrel
    generalize hm : s.membrane = m at hrel
    cases hrel with
    | @some membrane _ hgrows =>
      obtain ⟨hstack, hpaired, hsettled⟩ := hs.inStep membrane hm
      constructor
      · rw [hgrows.frame]
        exact hstack
      · rw [h.consumed]
        exact hpaired
      · intro v hv
        rw [h.consumed] at hv
        obtain ⟨key, hkey, hstatus⟩ := hsettled v hv
        exact ⟨key, h.h2g _ _ hkey, hgrows.settled key hstatus⟩

/-- The flow has no membrane and its log is to be replayed from the start. -/
structure AtStart (s : Flow) : Prop where
  membrane : s.membrane = none
  eph : s.eph = reinitLog s.generation s.mapStore
  h2g : s.h2g = ∅
  g2h : s.g2h = ∅

theorem cursor_reinit {generation : Nat} (h : s.eph = reinitLog generation s.mapStore) :
    Cursor s := by
  constructor
  · rw [h]
    exact Nat.zero_le _
  · unfold Flow.consumed
    rw [h]
    rfl
  · rw [h]
    cases s.mapStore <;> simp [reinitLog]
  · rw [h]
    intro e he
    rw [List.mem_singleton.mp he]
    rfl

theorem AtStart.inv (h : AtStart s) (hs : ReplayLogSound s) : FlowInv stack s where
  sound := hs
  cursor := cursor_reinit h.eph
  coherent := {
    h2g := fun x k hx => by
      rw [h.h2g] at hx
      cases hx
    g2h := fun k hk => by
      rw [h.g2h] at hk
      cases hk
    promises := fun membrane hm => by
      rw [h.membrane] at hm
      cases hm
    watchers := fun membrane hm => by
      rw [h.membrane] at hm
      cases hm }
  inStep := fun membrane hm => by
    rw [h.membrane] at hm
    cases hm

theorem getFlowState_spec :
    Wp getFlowState (fun _ t => t = s) (fun _ t => t = s) s := by
  unfold getFlowState
  rw [wp_bind, wp_get]
  repeat' first
    | exact rfl
    | apply wp_ite <;> intro _

theorem panic_spec {α : Type} {Q : α → Flow → Prop} (problem : Problem) :
    Wp (panic problem : FlowM α) Q (fun _ t => AtStart t ∧ SameLog s t) s := by
  simp only [panic, dropMembrane, logReset, bijectionReset, wp_bind, wp_modify]
  apply wp_mono getFlowState_spec
  · rintro flowState t rfl
    apply wp_ite <;> intro _ <;> exact ⟨⟨rfl, rfl, rfl, rfl⟩, rfl, rfl⟩
  · rintro _ t rfl
    exact ⟨⟨rfl, rfl, rfl, rfl⟩, rfl, rfl⟩

theorem orPanic_spec {α : Type} {m : FlowM α} {Q : α → Flow → Prop}
    (h : Wp m Q (fun _ t => ReplayLogSound t) s) :
    Wp (orPanic m) Q (fun _ t => AtStart t ∧ ReplayLogSound t) s := by
  unfold orPanic
  rw [wp_bind, wp_attempt]
  apply wp_mono h
  · exact fun _ _ hq => hq
  · intro problem t ht
    apply wp_mono (panic_spec problem)
    · exact fun _ _ hq => hq
    · exact fun _ u ⟨hstart, hsame⟩ => ⟨hstart, ht.same hsame⟩

end Invariant

section Reading

variable {s t : Flow} {entry : LogEntry}

/-- Only the cursor has moved, over the given visible entries. -/
structure Reads (s : Flow) (entries : List LogEntry) (t : Flow) : Prop where
  frame : t = { s with eph := t.eph }
  cursor : Cursor t
  consumed : visible t.consumed = visible s.consumed ++ entries

theorem Reads.sameLog {entries : List LogEntry} (h : Reads s entries t) : SameLog s t where
  mapStore := by rw [h.frame]
  deliveries := by rw [h.frame]

theorem Reads.coherent {entries : List LogEntry} (h : Reads s entries t) (hs : Coherent s) :
    Coherent t := by
  rw [h.frame]
  exact ⟨hs.h2g, hs.g2h, hs.promises, hs.watchers⟩

theorem Reads.trans {u : Flow} {xs ys : List LogEntry} (h : Reads s xs t) (h' : Reads t ys u) :
    Reads s (xs ++ ys) u where
  frame := by
    rw [h'.frame, h.frame]
  cursor := h'.cursor
  consumed := by
    rw [h'.consumed, h.consumed, List.append_assoc]

theorem isReplaying_iff : s.isReplaying = true ↔ s.eph.unfilteredIndex < s.mapStore.length := by
  unfold Flow.isReplaying
  exact decide_eq_true_iff

theorem rest_cons (h : s.isReplaying = true) : ∃ entry rest, s.rest = entry :: rest := by
  have hlt := isReplaying_iff.mp h
  cases hrest : s.rest with
  | nil =>
    have hlen := List.drop_eq_nil_iff.mp hrest
    omega
  | cons entry rest => exact ⟨entry, rest, rfl⟩

theorem getElem_of_rest {rest : List LogEntry} (h : s.rest = entry :: rest) :
    s.mapStore[s.eph.unfilteredIndex]? = some entry := by
  have hdrop : (s.mapStore.drop s.eph.unfilteredIndex)[0]? = some entry := by
    rw [show s.mapStore.drop s.eph.unfilteredIndex = entry :: rest from h]
    rfl
  rwa [List.getElem?_drop, Nat.add_zero] at hdrop

/-- The flow after the next entry was taken. -/
def Flow.advanced (s : Flow) (entry : LogEntry) : Flow :=
  { s with eph := s.eph.advance entry s.mapStore.length }

theorem advanced_rest {rest : List LogEntry} (h : s.rest = entry :: rest) :
    (s.advanced entry).rest = rest := by
  show s.mapStore.drop (s.eph.unfilteredIndex + 1) = rest
  rw [← List.drop_drop, show s.mapStore.drop s.eph.unfilteredIndex = entry :: rest from h]
  rfl

theorem Cursor.advanced {rest : List LogEntry} (hs : Cursor s) (h : s.rest = entry :: rest) :
    Reads s (visible [entry]) (s.advanced entry) ∧ (s.advanced entry).rest = rest := by
  have hget := getElem_of_rest h
  obtain ⟨hlt, -⟩ := List.getElem?_eq_some_iff.mp hget
  have htake : (s.advanced entry).consumed = s.consumed ++ [entry] := by
    show s.mapStore.take (s.eph.unfilteredIndex + 1) = _
    rw [List.take_add_one, hget]
    rfl
  have hconsumed : visible (s.advanced entry).consumed = visible s.consumed ++ visible [entry] := by
    rw [htake, visible_append]
  refine ⟨⟨rfl, ⟨hlt, ?_, ?_, hs.initialPush⟩, hconsumed⟩, advanced_rest h⟩
  · rw [hconsumed, List.length_append, ← hs.index]
    show (if entryIsVisible entry then s.eph.index + 1 else s.eph.index) = _
    unfold visible
    cases hvisible : entryIsVisible entry <;> simp [List.filter, hvisible]
  · show (s.eph.replayDone || decide (s.mapStore.length ≤ s.eph.unfilteredIndex + 1)) =
      decide (s.mapStore.length ≤ s.eph.unfilteredIndex + 1)
    rw [hs.replayDone, decide_eq_false (by omega)]
    rfl

theorem peekEntry_run {rest : List LogEntry} (h : s.rest = entry :: rest) :
    peekEntry s = .ok entry s := by
  unfold peekEntry
  rw [bind_run get_run, getElem_of_rest h]
  rfl

theorem nextUnfilteredEntry_run {rest : List LogEntry} (h : s.rest = entry :: rest) :
    nextUnfilteredEntry s = .ok entry (s.advanced entry) := by
  unfold nextUnfilteredEntry
  rw [bind_run (peekEntry_run h)]
  rfl

theorem isReplaying_of_rest {rest : List LogEntry} (h : s.rest = entry :: rest) :
    s.isReplaying = true := by
  obtain ⟨hlt, -⟩ := List.getElem?_eq_some_iff.mp (getElem_of_rest h)
  exact isReplaying_iff.mpr hlt

theorem rest_of_not_replaying (h : s.isReplaying = false) : s.rest = [] := by
  cases hrest : s.rest with
  | nil => rfl
  | cons entry rest =>
    rw [isReplaying_of_rest hrest] at h
    cases h

theorem SameLog.refl (s : Flow) : SameLog s s := ⟨rfl, rfl⟩

theorem SameLog.trans {u : Flow} (h : SameLog s t) (h' : SameLog t u) : SameLog s u :=
  ⟨h'.mapStore.trans h.mapStore, h'.deliveries.trans h.deliveries⟩

theorem nextEntryLoop_spec {fuel : Nat} (hs : Cursor s) (hfuel : s.rest.length < fuel) :
    Wp (nextEntryLoop fuel entry)
      (fun e t => ∃ skipped, Reads s skipped t ∧
        (entry :: s.rest).dropWhile (fun e => !entryIsVisible e) = e :: t.rest ∧
        visible [entry] ++ skipped = [e])
      (fun _ t => SameLog s t) s := by
  induction fuel generalizing s entry with
  | zero => omega
  | succ fuel ih =>
    unfold nextEntryLoop
    cases hvisible : entryIsVisible entry with
    | true =>
      refine ⟨[], ⟨rfl, hs, (List.append_nil _).symm⟩, ?_, ?_⟩
      · rw [List.dropWhile_cons_of_neg (by simp [hvisible])]
      · simp [visible, List.filter, hvisible]
    | false =>
      rw [if_neg Bool.false_ne_true, wp_bind, wp_get]
      apply wp_ite
      · intro hreplaying
        obtain ⟨next, rest, hrest⟩ := rest_cons hreplaying
        obtain ⟨hreads, hrest'⟩ := hs.advanced hrest
        rw [wp_bind, wp_of_run (nextUnfilteredEntry_run hrest)]
        have hlen : (s.advanced next).rest.length < fuel := by
          rw [hrest, List.length_cons] at hfuel
          rw [hrest']
          omega
        apply wp_mono (ih hreads.cursor hlen)
        · rintro e t ⟨skipped, ht, hdrop, hskipped⟩
          refine ⟨visible [next] ++ skipped, hreads.trans ht, ?_, ?_⟩
          · rw [List.dropWhile_cons_of_pos (by simp [hvisible]), hrest, ← hdrop, hrest']
          · rw [hskipped]
            simp [visible, List.filter, hvisible]
        · exact fun _ t ht => hreads.sameLog.trans ht
      · intro _
        exact SameLog.refl s

theorem nextEntry_spec (hs : Cursor s) (hreplaying : s.isReplaying = true) :
    Wp nextEntry
      (fun e t => Reads s [e] t ∧
        s.rest.dropWhile (fun e => !entryIsVisible e) = e :: t.rest)
      (fun _ t => SameLog s t) s := by
  obtain ⟨entry, rest, hrest⟩ := rest_cons hreplaying
  obtain ⟨hreads, hrest'⟩ := hs.advanced hrest
  unfold nextEntry
  rw [wp_bind, wp_of_run (nextUnfilteredEntry_run hrest), wp_bind, wp_get]
  have hlen : (s.advanced entry).rest.length < (s.advanced entry).mapStore.length + 1 := by
    unfold Flow.rest
    rw [List.length_drop]
    omega
  apply wp_mono (nextEntryLoop_spec hreads.cursor hlen)
  · rintro e t ⟨skipped, ht, hdrop, hskipped⟩
    have hall := hreads.trans ht
    rw [hskipped] at hall
    exact ⟨hall, by rw [hrest, ← hdrop, hrest']⟩
  · exact fun _ t ht => hreads.sameLog.trans ht

end Reading

section Pushing

variable {isStorable : HostCap → Bool} {s t : Flow} {entry : LogEntry}

/-- Entries were added at the end of a log that is not being replayed. -/
structure Pushes (s : Flow) (entries : List LogEntry) (t : Flow) : Prop where
  frame : t = { s with mapStore := t.mapStore, eph := t.eph }
  mapStore : t.mapStore = s.mapStore ++ entries
  unfilteredIndex : t.eph.unfilteredIndex = s.eph.unfilteredIndex + entries.length
  index : t.eph.index = s.eph.index + (visible entries).length
  replayDone : t.eph.replayDone = s.eph.replayDone
  initialPush : ∀ e ∈ t.eph.initialPush, e ∈ s.eph.initialPush

theorem Pushes.trans {u : Flow} {xs ys : List LogEntry} (h : Pushes s xs t)
    (h' : Pushes t ys u) : Pushes s (xs ++ ys) u where
  frame := by
    rw [h'.frame, h.frame]
  mapStore := by
    rw [h'.mapStore, h.mapStore, List.append_assoc]
  unfilteredIndex := by
    rw [h'.unfilteredIndex, h.unfilteredIndex, List.length_append, Nat.add_assoc]
  index := by
    rw [h'.index, h.index, visible_append, List.length_append, Nat.add_assoc]
  replayDone := h'.replayDone.trans h.replayDone
  initialPush := fun e he => h.initialPush e (h'.initialPush e he)

theorem pushOne_spec :
    Wp (pushOne isStorable entry) (fun _ t => Pushes s [entry] t) (fun _ t => t = s) s := by
  unfold pushOne
  apply wp_ite
  · intro _
    refine ⟨rfl, rfl, rfl, ?_, rfl, fun _ he => he⟩
    show (if entryIsVisible entry then s.eph.index + 1 else s.eph.index) = _
    unfold visible
    cases hvisible : entryIsVisible entry <;> simp [List.filter, hvisible]
  · intro _
    exact rfl

theorem Pushes.nil (s : Flow) : Pushes s [] s :=
  ⟨rfl, (List.append_nil _).symm, rfl, rfl, rfl, fun _ he => he⟩

theorem pushAll_spec (entries : List LogEntry) (s : Flow) :
    Wp (entries.forM (pushOne isStorable)) (fun _ t => Pushes s entries t)
      (fun _ t => ∃ pushed, pushed <+: entries ∧ Pushes s pushed t) s := by
  induction entries generalizing s with
  | nil => exact Pushes.nil s
  | cons entry entries ih =>
    change Wp (pushOne isStorable entry >>= fun _ => entries.forM (pushOne isStorable)) _ _ s
    rw [wp_bind]
    apply wp_mono pushOne_spec
    · intro _ t ht
      apply wp_mono (ih t)
      · exact fun _ u hu => ht.trans hu
      · rintro _ u ⟨pushed, hprefix, hu⟩
        exact ⟨entry :: pushed, List.cons_prefix_cons.mpr ⟨rfl, hprefix⟩, ht.trans hu⟩
    · rintro _ t rfl
      exact ⟨[], List.nil_prefix, Pushes.nil t⟩

/-- A push adds the entry, after entries that are not visible; a push that fails may
leave some of the latter. -/
theorem pushEntry_spec (hinitial : ∀ e ∈ s.eph.initialPush, entryIsVisible e = false)
    (hreplaying : s.isReplaying = false) :
    Wp (pushEntry isStorable entry)
      (fun _ t => ∃ before, visible before = [] ∧ Pushes s (before ++ [entry]) t)
      (fun _ t => ∃ before, visible before = [] ∧ Pushes s before t) s := by
  unfold pushEntry
  rw [wp_bind, wp_get, hreplaying, if_neg Bool.false_ne_true]
  simp only [wp_bind, wp_modify]
  have hforget : ∀ {entries : List LogEntry} {u : Flow},
      Pushes { s with eph := { s.eph with initialPush := [] } } entries u → Pushes s entries u :=
    fun h => ⟨h.frame, h.mapStore, h.unfilteredIndex, h.index, h.replayDone,
      fun e he => absurd (h.initialPush e he) List.not_mem_nil⟩
  apply wp_mono (pushAll_spec s.eph.initialPush _)
  · intro _ t ht
    apply wp_mono pushOne_spec
    · intro _ u hu
      exact ⟨s.eph.initialPush, visible_eq_nil hinitial, hforget (ht.trans hu)⟩
    · rintro _ u rfl
      exact ⟨s.eph.initialPush, visible_eq_nil hinitial, hforget ht⟩
  · rintro _ t ⟨pushed, hleading, ht⟩
    exact ⟨pushed, visible_eq_nil fun e he => hinitial e (hleading.mem he), hforget ht⟩

theorem consumed_of_not_replaying (h : s.isReplaying = false) : s.consumed = s.mapStore := by
  apply List.take_of_length_le
  have hlt : ¬ s.eph.unfilteredIndex < s.mapStore.length := by
    rw [← isReplaying_iff, h]
    exact Bool.false_ne_true
  omega

theorem Pushes.cursor {entries : List LogEntry} (h : Pushes s entries t) (hs : Cursor s)
    (hreplaying : s.isReplaying = false) : Cursor t ∧ t.isReplaying = false := by
  have hlt : ¬ s.eph.unfilteredIndex < s.mapStore.length := by
    rw [← isReplaying_iff, hreplaying]
    exact Bool.false_ne_true
  have hle := hs.le
  have hlen : t.eph.unfilteredIndex = t.mapStore.length := by
    rw [h.unfilteredIndex, h.mapStore, List.length_append]
    omega
  have hreplaying' : t.isReplaying = false := by
    rw [Bool.eq_false_iff, Ne, isReplaying_iff]
    omega
  refine ⟨⟨by omega, ?_, ?_, fun e he => hs.initialPush e (h.initialPush e he)⟩, hreplaying'⟩
  · rw [consumed_of_not_replaying hreplaying', h.index, hs.index, h.mapStore, visible_append,
      List.length_append, consumed_of_not_replaying hreplaying]
  · rw [h.replayDone, hs.replayDone, decide_eq_true (by omega), decide_eq_true (by omega)]

theorem Pushes.visible {entries : List LogEntry} (h : Pushes s entries t) :
    visible t.mapStore = visible s.mapStore ++ visible entries := by
  rw [h.mapStore, visible_append]

theorem Pushes.coherent {entries : List LogEntry} (h : Pushes s entries t) (hs : Coherent s) :
    Coherent t := by
  rw [h.frame]
  exact ⟨hs.h2g, hs.g2h, hs.promises, hs.watchers⟩

theorem Pushes.sound {entries : List LogEntry} (h : Pushes s entries t) (hs : ReplayLogSound s)
    (hgrammar : inGrammar 0 (AsyncFlow.visible s.mapStore ++ AsyncFlow.visible entries) = true)
    (hvows : settledVows (AsyncFlow.visible entries) = []) : ReplayLogSound t where
  grammar := by
    rw [h.visible]
    exact hgrammar
  settledOnce := by
    rw [h.visible, settledVows, List.filterMap_append,
      show (AsyncFlow.visible entries).filterMap settledVow = [] from hvows, List.append_nil]
    exact hs.settledOnce
  deliveries := by
    rw [h.frame]
    exact hs.deliveries

end Pushing

end AgoricSdk.AsyncFlow
