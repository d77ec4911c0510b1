import AgoricSdk.Timer.Deadlines
import AgoricSdk.Timer.MeasureInterval

/-!
A timer notifier and the iterators that read it. The notifier answers with the latest
occurrence, or waits for the next one if the caller has the latest already; it computes
the answer from the time at which it gives it.
-/

namespace AgoricSdk.Timer

/-- The last update of a cancelled notifier has no count. -/
structure Update where
  value : ℕ
  updateCount : Option ℤ
  deriving DecidableEq

structure Iterator where
  updateCount : Option ℤ := none
  active : Bool := false
  /-- What it was given, the latest first. -/
  received : List Update := []
  deriving DecidableEq

/-- `waiting` holds the promise events: when each is due, and the iterator it answers. -/
structure Notifier where
  now : ℕ
  start : ℕ
  interval : ℕ
  final : Option Update := none
  iterators : ℕ → Iterator := fun _ => {}
  waiting : List (ℕ × ℕ) := []

/-- The counts an iterator was given, the latest first. -/
def Iterator.counts (it : Iterator) : List ℤ := it.received.filterMap (·.updateCount)

def initNotifier (now delay interval : ℕ) : Option Notifier :=
  if 0 < interval then some { now, start := now + delay, interval } else none

namespace Notifier

/-- The iterator's reaction to an update. -/
def deliver (t : Notifier) (i : ℕ) (u : Update) : Notifier :=
  { t with iterators := Function.update t.iterators i {
      updateCount := u.updateCount, active := false
      received := u :: (t.iterators i).received } }

/-- Recompute the update when the wakeup comes. A failing computation rejects the promise,
and the iterator goes on waiting. -/
def fired (t : Notifier) (i thenTS : ℕ) : Notifier :=
  match measureInterval t.start t.interval thenTS with
  | some { latest := some latest, .. } =>
    t.deliver i { value := latest.time, updateCount := some latest.count }
  | _ => t

def wakeAtInternal (t : Notifier) (i when : ℕ) : Notifier :=
  if when ≤ t.now then t.fired i t.now
  else { t with waiting := t.waiting ++ [(when, i)] }

def getUpdateSince (t : Notifier) (i : ℕ) (updateCount : ℤ) : Notifier :=
  match t.final with
  | some final => t.deliver i final
  | none =>
    match measureInterval t.start t.interval t.now with
    | none => t
    | some { latest := none, next } => t.wakeAtInternal i next.time
    | some { latest := some latest, next } =>
      if latest.count = updateCount then t.wakeAtInternal i next.time
      else t.deliver i { value := latest.time, updateCount := some latest.count }

def setActive (t : Notifier) (i : ℕ) : Notifier :=
  { t with iterators := Function.update t.iterators i { t.iterators i with active := true } }

/-- An iterator does not overlap its requests. -/
def next (t : Notifier) (i : ℕ) : Notifier :=
  if (t.iterators i).active then t
  else (t.setActive i).getUpdateSince i ((t.iterators i).updateCount.getD (-1))

/-- The device's clock does not go back. -/
def poll (t : Notifier) (time : ℕ) : Notifier :=
  if t.now ≤ time then { t with now := time } else t

def processAndReschedule (t : Notifier) : Notifier :=
  let now := t.now
  (t.waiting.filter (·.1 ≤ now)).foldl (fun t event => t.fired event.2 now)
    { t with waiting := t.waiting.filter (now < ·.1) }

/-- Cancelling gives all who wait, and all who ask later, the time of cancellation. -/
def cancel (t : Notifier) : Notifier :=
  let final := t.final.getD { value := t.now, updateCount := none }
  t.waiting.foldl (fun t event => t.deliver event.2 final)
    { t with final := some final, waiting := [] }

end Notifier

inductive TimerEvent where
  | poll (time : ℕ)
  | wake
  | next (i : ℕ)
  | cancel

def TimerEvent.apply (t : Notifier) : TimerEvent → Notifier
  | .poll time => t.poll time
  | .wake => t.processAndReschedule
  | .next i => t.next i
  | .cancel => t.cancel

def Notifier.run (t : Notifier) (events : List TimerEvent) : Notifier := events.foldl TimerEvent.apply t

/-- Every update is an occurrence that has come, and counts only grow. `pending` are the
waits still to be answered: each iterator has one at most, and it is for a later
occurrence than any it was given. -/
structure Notifier.Inv (t : Notifier) (pending : List (ℕ × ℕ)) : Prop where
  received (i : ℕ) (u : Update) (hu : u ∈ (t.iterators i).received) (c : ℤ)
    (hc : u.updateCount = some c) :
    Occurrence.OnSchedule t.start t.interval ⟨u.value, c⟩ ∧ u.value ≤ t.now
  last (i : ℕ) :
    (t.iterators i).updateCount = (t.iterators i).received.head?.bind (·.updateCount)
  decreasing (i : ℕ) : (t.iterators i).counts.Pairwise (· > ·)
  final (u : Update) (hu : t.final = some u) : u.updateCount = none
  open_counted (hopen : t.final = none) (i : ℕ) :
    ∀ u ∈ (t.iterators i).received, u.updateCount ≠ none
  active (event : ℕ × ℕ) (hevent : event ∈ pending) : (t.iterators event.2).active = true
  later (event : ℕ × ℕ) (hevent : event ∈ pending) :
    ∀ c ∈ (t.iterators event.2).counts, t.start + c * t.interval ≤ event.1
  nodup : (pending.map Prod.snd).Nodup

namespace Notifier

variable {t : Notifier} {pending : List (ℕ × ℕ)} {i : ℕ}

theorem deliver_self (t : Notifier) (i : ℕ) (u : Update) : (t.deliver i u).iterators i = {
    updateCount := u.updateCount, active := false, received := u :: (t.iterators i).received } :=
  Function.update_self ..

theorem deliver_ne (t : Notifier) {i j : ℕ} (u : Update) (h : j ≠ i) :
    (t.deliver i u).iterators j = t.iterators j :=
  Function.update_of_ne h ..

theorem Inv.ne_of_not_mem {event : ℕ × ℕ} (hi : i ∉ pending.map Prod.snd)
    (hevent : event ∈ pending) : event.2 ≠ i := by
  rintro rfl
  exact hi (List.mem_map_of_mem hevent)

theorem Inv.deliver (h : t.Inv pending) (hi : i ∉ pending.map Prod.snd) {u : Update}
    (hcounted : ∀ n, u.updateCount = some n →
      (Occurrence.OnSchedule t.start t.interval ⟨u.value, n⟩ ∧ u.value ≤ t.now) ∧
        ∀ c ∈ (t.iterators i).counts, c < n)
    (huncounted : u.updateCount = none → t.final ≠ none) : (t.deliver i u).Inv pending where
  received j v hv c hc := by
    by_cases hj : j = i
    · subst hj
      rw [deliver_self] at hv
      rcases List.mem_cons.mp hv with rfl | hv
      · exact (hcounted c hc).1
      · exact h.received j v hv c hc
    · rw [deliver_ne t u hj] at hv
      exact h.received j v hv c hc
  last j := by
    by_cases hj : j = i
    · subst hj
      rw [deliver_self]
      rfl
    · rw [deliver_ne t u hj]
      exact h.last j
  decreasing j := by
    by_cases hj : j = i
    · subst hj
      rw [deliver_self, Iterator.counts]
      cases hn : u.updateCount with
      | none =>
        rw [List.filterMap_cons_none hn]
        exact h.decreasing j
      | some n =>
        rw [List.filterMap_cons_some hn]
        exact List.pairwise_cons.mpr ⟨(hcounted n hn).2, h.decreasing j⟩
    · rw [deliver_ne t u hj]
      exact h.decreasing j
  final := h.final
  open_counted hopen j v hv := by
    by_cases hj : j = i
    · subst hj
      rw [deliver_self] at hv
      rcases List.mem_cons.mp hv with rfl | hv
      · exact fun hnone => huncounted hnone hopen
      · exact h.open_counted hopen j v hv
    · rw [deliver_ne t u hj] at hv
      exact h.open_counted hopen j v hv
  active event hevent := by
    rw [deliver_ne t u (ne_of_not_mem hi hevent)]
    exact h.active event hevent
  later event hevent := by
    rw [deliver_ne t u (ne_of_not_mem hi hevent)]
    exact h.later event hevent
  nodup := h.nodup

theorem Inv.of_perm {pending' : List (ℕ × ℕ)} (h : t.Inv pending) (hperm : pending'.Perm pending) :
    t.Inv pending' where
  received := h.received
  last := h.last
  decreasing := h.decreasing
  final := h.final
  open_counted := h.open_counted
  active event hevent := h.active event (hperm.mem_iff.mp hevent)
  later event hevent := h.later event (hperm.mem_iff.mp hevent)
  nodup := (hperm.map Prod.snd).nodup_iff.mpr h.nodup

theorem Inv.tail {event : ℕ × ℕ} (h : t.Inv (event :: pending)) : t.Inv pending where
  received := h.received
  last := h.last
  decreasing := h.decreasing
  final := h.final
  open_counted := h.open_counted
  active event hevent := h.active event (List.mem_cons_of_mem _ hevent)
  later event hevent := h.later event (List.mem_cons_of_mem _ hevent)
  nodup := h.nodup.of_cons

theorem Inv.count_lt_next (h : t.Inv pending) {m : Measure}
    (hm : m.Exact t.start t.interval t.now) {c : ℤ} (hc : c ∈ (t.iterators i).counts) :
    c < m.next.count := by
  obtain ⟨u, hu, hcount⟩ := List.mem_filterMap.mp hc
  obtain ⟨⟨-, htime⟩, hle⟩ := h.received i u hu c hcount
  obtain ⟨⟨-, hnext⟩, hlt⟩ := hm.next
  have htimes : (u.value : ℤ) < m.next.time := by omega
  rw [htime, hnext] at htimes
  have hmul : (c - 1) * (t.interval : ℤ) < (m.next.count - 1) * t.interval := by linarith
  have hlt := lt_of_mul_lt_mul_right hmul (Int.natCast_nonneg _)
  omega

theorem Inv.fired {when : ℕ} (h : t.Inv ((when, i) :: pending)) (hinterval : 0 < t.interval)
    (hnow : t.now < 2 ^ 53) (hdue : when ≤ t.now) : (t.fired i t.now).Inv pending := by
  obtain ⟨m, hm, hexact⟩ : MeasuredExactly t.start t.interval t.now :=
    measureInterval_exact hinterval hnow
  obtain ⟨latest, next⟩ := m
  unfold Notifier.fired
  rw [hm]
  cases latest with
  | none => exact h.tail
  | some latest =>
    obtain ⟨hschedule, hle, hnext⟩ := hexact.latest latest rfl
    apply h.tail.deliver (List.nodup_cons.mp h.nodup).1
    · rintro n ⟨⟩
      refine ⟨⟨hschedule, hle⟩, fun c hc => ?_⟩
      have hlater := h.later (when, i) List.mem_cons_self c hc
      obtain ⟨⟨-, htime⟩, hlt⟩ := hexact.next
      have htimes : (t.start : ℤ) + c * t.interval < next.time := by
        dsimp only at hlater hlt
        omega
      dsimp only at htime hnext
      rw [htime, hnext] at htimes
      have hmul : c * (t.interval : ℤ) < latest.count * t.interval := by linarith
      exact lt_of_mul_lt_mul_right hmul (Int.natCast_nonneg _)
    · exact nofun

theorem fired_same (t : Notifier) (i thenTS : ℕ) :
    (t.fired i thenTS).waiting = t.waiting ∧ (t.fired i thenTS).now = t.now ∧
      (t.fired i thenTS).start = t.start ∧ (t.fired i thenTS).interval = t.interval := by
  unfold Notifier.fired
  split <;> exact ⟨rfl, rfl, rfl, rfl⟩

theorem Inv.wait (h : t.Inv pending) {m : Measure} (hm : m.Exact t.start t.interval t.now)
    (hactive : (t.iterators i).active = true) (hi : i ∉ pending.map Prod.snd) :
    ({ t with waiting := t.waiting ++ [(m.next.time, i)] } : Notifier).Inv
      (pending ++ [(m.next.time, i)]) := by
  have hcons : ({ t with waiting := t.waiting ++ [(m.next.time, i)] } : Notifier).Inv
      ((m.next.time, i) :: pending) := by
    constructor
    · exact h.received
    · exact h.last
    · exact h.decreasing
    · exact h.final
    · exact h.open_counted
    · exact List.forall_mem_cons.mpr ⟨hactive, h.active⟩
    · rw [List.forall_mem_cons]
      refine ⟨fun c hc => ?_, h.later⟩
      have hlt := h.count_lt_next hm hc
      have hmul : c * (t.interval : ℤ) ≤ (m.next.count - 1) * t.interval :=
        mul_le_mul_of_nonneg_right (by omega) (Int.natCast_nonneg _)
      have htime := hm.next.1.2
      change (t.start : ℤ) + c * t.interval ≤ m.next.time
      linarith
    · exact List.nodup_cons.mpr ⟨hi, h.nodup⟩
  exact hcons.of_perm (List.perm_append_singleton ..)

theorem Inv.getUpdateSince (h : t.Inv t.waiting) (hinterval : 0 < t.interval)
    (hnow : t.now < 2 ^ 53) (hactive : (t.iterators i).active = true)
    (hi : i ∉ t.waiting.map Prod.snd) :
    (t.getUpdateSince i ((t.iterators i).updateCount.getD (-1))).Inv
      (t.getUpdateSince i ((t.iterators i).updateCount.getD (-1))).waiting := by
  obtain ⟨m, hm, hexact⟩ : MeasuredExactly t.start t.interval t.now :=
    measureInterval_exact hinterval hnow
  have hwait : (t.wakeAtInternal i m.next.time).Inv (t.wakeAtInternal i m.next.time).waiting := by
    rw [wakeAtInternal, if_neg (not_le.mpr hexact.next.2)]
    exact h.wait hexact hactive hi
  obtain ⟨latest, next⟩ := m
  unfold Notifier.getUpdateSince
  cases hfinal : t.final with
  | some final =>
    apply h.deliver hi
    · intro n hn
      rw [h.final final hfinal] at hn
      cases hn
    · intro _
      rw [hfinal]
      exact nofun
  | none =>
    rw [hm]
    cases latest with
    | none => exact hwait
    | some latest =>
      dsimp only
      split
      case isTrue => exact hwait
      case isFalse hne =>
        obtain ⟨hschedule, hle, hnext⟩ := hexact.latest latest rfl
        apply h.deliver hi
        · rintro n ⟨⟩
          refine ⟨⟨hschedule, hle⟩, fun c hc => ?_⟩
          -- the greatest count is the one that was asked about
          have hlast := h.last i
          have hdecreasing := h.decreasing i
          have hopen := h.open_counted hfinal i
          have hlt := h.count_lt_next hexact hc
          unfold Iterator.counts at hc hdecreasing
          dsimp only at hnext hlt
          cases hreceived : (t.iterators i).received with
          | nil =>
            rw [hreceived] at hc
            cases hc
          | cons u rest =>
            rw [hreceived] at hc hdecreasing hlast hopen
            obtain ⟨n, hn⟩ := Option.ne_none_iff_exists'.mp (hopen u List.mem_cons_self)
            rw [List.filterMap_cons_some hn] at hc hdecreasing
            have hcount : (t.iterators i).updateCount = some n := by
              rw [hlast]
              exact hn
            rw [hcount, Option.getD_some] at hne
            have hbound := h.count_lt_next (i := i) hexact (c := n) (by
              rw [Iterator.counts, hreceived, List.filterMap_cons_some hn]
              exact List.mem_cons_self)
            dsimp only at hbound
            rcases List.mem_cons.mp hc with rfl | hc
            · omega
            · have hgt := (List.pairwise_cons.mp hdecreasing).1 c hc
              omega
        · exact nofun

theorem setActive_self (t : Notifier) (i : ℕ) :
    (t.setActive i).iterators i = { t.iterators i with active := true } :=
  Function.update_self ..

theorem setActive_ne (t : Notifier) {i j : ℕ} (h : j ≠ i) :
    (t.setActive i).iterators j = t.iterators j :=
  Function.update_of_ne h ..

theorem Inv.setActive (h : t.Inv pending) (i : ℕ) : (t.setActive i).Inv pending := by
  have hsame (j : ℕ) : ((t.setActive i).iterators j).received = (t.iterators j).received ∧
      ((t.setActive i).iterators j).updateCount = (t.iterators j).updateCount ∧
      ((t.iterators j).active = true → ((t.setActive i).iterators j).active = true) := by
    by_cases hj : j = i
    · subst hj
      rw [setActive_self]
      exact ⟨rfl, rfl, fun _ => rfl⟩
    · rw [setActive_ne t hj]
      exact ⟨rfl, rfl, id⟩
  have hcounts (j : ℕ) : ((t.setActive i).iterators j).counts = (t.iterators j).counts :=
    congrArg (List.filterMap _) (hsame j).1
  constructor
  · intro j u hu
    rw [(hsame j).1] at hu
    exact h.received j u hu
  · intro j
    rw [(hsame j).1, (hsame j).2.1]
    exact h.last j
  · intro j
    rw [hcounts]
    exact h.decreasing j
  · exact h.final
  · intro hopen j
    rw [(hsame j).1]
    exact h.open_counted hopen j
  · intro event hevent
    exact (hsame event.2).2.2 (h.active event hevent)
  · intro event hevent
    rw [hcounts]
    exact h.later event hevent
  · exact h.nodup

/-- Between events, the waits recorded are those still to be answered. -/
def Valid (t : Notifier) : Prop := t.Inv t.waiting ∧ 0 < t.interval

theorem Valid.next (h : t.Valid) (hnow : t.now < 2 ^ 53) (i : ℕ) : (t.next i).Valid := by
  unfold Notifier.next
  split
  case isTrue => exact h
  case isFalse hidle =>
    have hi : i ∉ t.waiting.map Prod.snd := by
      intro hmem
      obtain ⟨event, hevent, rfl⟩ := List.mem_map.mp hmem
      exact hidle (h.1.active event hevent)
    have hstep := (h.1.setActive i).getUpdateSince (i := i) h.2 hnow (by rw [setActive_self]) hi
    rw [setActive_self] at hstep
    refine ⟨hstep, ?_⟩
    have hinterval (t : Notifier) (i : ℕ) (c : ℤ) :
        (t.getUpdateSince i c).interval = t.interval := by
      have hwake (when : ℕ) : (t.wakeAtInternal i when).interval = t.interval := by
        unfold wakeAtInternal
        split
        · exact (t.fired_same i t.now).2.2.2
        · rfl
      unfold Notifier.getUpdateSince
      split
      · rfl
      · split
        · rfl
        · exact hwake _
        · split
          · exact hwake _
          · rfl
    rw [hinterval]
    exact h.2

theorem Valid.poll (h : t.Valid) (time : ℕ) : (t.poll time).Valid := by
  unfold Notifier.poll
  split
  case isFalse => exact h
  case isTrue hle =>
    refine ⟨?_, h.2⟩
    constructor
    · intro i u hu c hc
      obtain ⟨hschedule, hnow⟩ := h.1.received i u hu c hc
      exact ⟨hschedule, hnow.trans hle⟩
    · exact h.1.last
    · exact h.1.decreasing
    · exact h.1.final
    · exact h.1.open_counted
    · exact h.1.active
    · exact h.1.later
    · exact h.1.nodup

theorem Inv.fold_fired {due rest : List (ℕ × ℕ)} {now : ℕ} (h : t.Inv (due ++ rest))
    (hinterval : 0 < t.interval) (hnow : t.now = now) (hlt : now < 2 ^ 53)
    (hdue : ∀ event ∈ due, event.1 ≤ now) :
    (due.foldl (fun t event => t.fired event.2 now) t).Inv rest ∧
      (due.foldl (fun t event => t.fired event.2 now) t).waiting = t.waiting ∧
      0 < (due.foldl (fun t event => t.fired event.2 now) t).interval := by
  induction due generalizing t with
  | nil => exact ⟨h, rfl, hinterval⟩
  | cons event due ih =>
    subst hnow
    obtain ⟨hhead, htail⟩ := List.forall_mem_cons.mp hdue
    obtain ⟨hwaiting, hsame, -, hinterval'⟩ := t.fired_same event.2 t.now
    have hstep : (t.fired event.2 t.now).Inv (due ++ rest) := h.fired hinterval hlt hhead
    obtain ⟨hinv, hwait, hpos⟩ := ih hstep (by rwa [hinterval']) hsame htail
    exact ⟨hinv, hwait.trans hwaiting, hpos⟩

theorem Valid.processAndReschedule (h : t.Valid) (hnow : t.now < 2 ^ 53) :
    t.processAndReschedule.Valid := by
  have hperm : (t.waiting.filter (·.1 ≤ t.now) ++ t.waiting.filter (t.now < ·.1)).Perm
      t.waiting := by
    have hsplit := List.filter_append_perm (fun event : ℕ × ℕ => decide (event.1 ≤ t.now)) t.waiting
    have hnot : t.waiting.filter (t.now < ·.1) =
        t.waiting.filter fun event => !decide (event.1 ≤ t.now) := by
      apply List.filter_congr
      intro event _
      simp only [← not_le, decide_not]
    rw [hnot]
    exact hsplit
  have hinv := h.1.of_perm hperm
  have hreduced : ({ t with waiting := t.waiting.filter (t.now < ·.1) } : Notifier).Inv
      (t.waiting.filter (·.1 ≤ t.now) ++ t.waiting.filter (t.now < ·.1)) :=
    ⟨hinv.received, hinv.last, hinv.decreasing, hinv.final, hinv.open_counted, hinv.active,
      hinv.later, hinv.nodup⟩
  have hdue : ∀ event ∈ t.waiting.filter (·.1 ≤ t.now), event.1 ≤ t.now :=
    fun event hevent => of_decide_eq_true (List.mem_filter.mp hevent).2
  obtain ⟨hfold, hwaiting, hinterval⟩ := hreduced.fold_fired h.2 rfl hnow hdue
  refine ⟨?_, hinterval⟩
  unfold Notifier.processAndReschedule
  rw [hwaiting]
  exact hfold

theorem Inv.fold_deliver {final : Update} (hcount : final.updateCount = none)
    (h : t.Inv pending) (hfinal : t.final ≠ none) :
    (pending.foldl (fun t event => t.deliver event.2 final) t).Inv [] ∧
      (pending.foldl (fun t event => t.deliver event.2 final) t).waiting = t.waiting ∧
      (pending.foldl (fun t event => t.deliver event.2 final) t).interval = t.interval := by
  induction pending generalizing t with
  | nil => exact ⟨h, rfl, rfl⟩
  | cons event pending ih =>
    have hstep : (t.deliver event.2 final).Inv pending := by
      apply h.tail.deliver (List.nodup_cons.mp h.nodup).1
      · intro n hn
        rw [hcount] at hn
        cases hn
      · exact fun _ => hfinal
    exact ih hstep hfinal

theorem Valid.cancel (h : t.Valid) : t.cancel.Valid := by
  have hcount : (t.final.getD { value := t.now, updateCount := none }).updateCount = none := by
    cases hfinal : t.final with
    | none => rfl
    | some final => exact h.1.final final hfinal
  have hclosed : ({ t with
      final := some (t.final.getD { value := t.now, updateCount := none }), waiting := [] } :
      Notifier).Inv t.waiting := by
    constructor
    · exact h.1.received
    · exact h.1.last
    · exact h.1.decreasing
    · intro u hu
      cases hu
      exact hcount
    · exact nofun
    · exact h.1.active
    · exact h.1.later
    · exact h.1.nodup
  obtain ⟨hfold, hwaiting, hinterval⟩ := hclosed.fold_deliver hcount nofun
  unfold Notifier.cancel
  refine ⟨?_, ?_⟩
  · rw [hwaiting]
    exact hfold
  · rw [hinterval]
    exact h.2

theorem apply_now_le (t : Notifier) (event : TimerEvent) : t.now ≤ (event.apply t).now := by
  have hfold (due : List (ℕ × ℕ)) (f : Notifier → ℕ × ℕ → Notifier)
      (hf : ∀ t event, (f t event).now = t.now) (t : Notifier) : (due.foldl f t).now = t.now := by
    induction due generalizing t with
    | nil => rfl
    | cons event due ih => exact (ih _).trans (hf t event)
  cases event with
  | poll time =>
    change t.now ≤ (t.poll time).now
    unfold Notifier.poll
    split
    case isTrue hle => exact hle
    case isFalse => exact le_rfl
  | wake =>
    have hsame := hfold (t.waiting.filter (·.1 ≤ t.now)) (fun u event => u.fired event.2 t.now)
      (fun u event => (u.fired_same event.2 t.now).2.1)
      { t with waiting := t.waiting.filter (t.now < ·.1) }
    exact hsame.ge
  | next i =>
    have hwake (t : Notifier) (when : ℕ) : (t.wakeAtInternal i when).now = t.now := by
      unfold wakeAtInternal
      split
      · exact (t.fired_same i t.now).2.1
      · rfl
    change t.now ≤ (t.next i).now
    unfold Notifier.next Notifier.getUpdateSince
    split
    · exact le_rfl
    · split
      · exact le_rfl
      · split
        · exact le_rfl
        · exact (hwake (t.setActive i) _).ge
        · split
          · exact (hwake (t.setActive i) _).ge
          · exact le_rfl
  | cancel =>
    have hsame (final : Update) := hfold t.waiting (fun u event => u.deliver event.2 final)
      (fun _ _ => rfl) { t with final := some final, waiting := [] }
    exact (hsame _).ge

theorem run_now_le (t : Notifier) (events : List TimerEvent) : t.now ≤ (t.run events).now := by
  induction events generalizing t with
  | nil => exact le_rfl
  | cons event events ih => exact (t.apply_now_le event).trans (ih _)

theorem Valid.run (h : t.Valid) {events : List TimerEvent} (hnow : (t.run events).now < 2 ^ 53) :
    (t.run events).Valid := by
  induction events generalizing t with
  | nil => exact h
  | cons event events ih =>
    have hlater := (t.apply_now_le event).trans ((event.apply t).run_now_le events)
    have hlt : t.now < 2 ^ 53 := hlater.trans_lt hnow
    apply ih _ hnow
    cases event with
    | poll time => exact h.poll time
    | wake => exact h.processAndReschedule hlt
    | next i => exact h.next hlt i
    | cancel => exact h.cancel

end Notifier

/-- The updates of an iterator, in the order in which it was given them. -/
structure Iterator.InStep (start interval now : ℕ) (it : Iterator) : Prop where
  increasing : it.counts.reverse.Pairwise (· < ·)
  paired (u : Update) (hu : u ∈ it.received) (c : ℤ) (hc : u.updateCount = some c) :
    Occurrence.OnSchedule start interval ⟨u.value, c⟩ ∧ u.value ≤ now

theorem initNotifier_valid {now delay interval : ℕ} {t : Notifier}
    (h : initNotifier now delay interval = some t) : t.Valid := by
  rw [initNotifier, Option.ite_none_right_eq_some] at h
  obtain ⟨hinterval, ⟨⟩⟩ := h
  refine ⟨?_, hinterval⟩
  constructor <;> simp [Iterator.counts]

/-- Schedules are exact as long as the clock stays below `2 ^ 53`, and no longer; the
device's deadlines are in order at all times. -/
theorem schedules_exact_iff (horizon : ℕ) :
    ((∀ start interval now, 0 < interval → now ≤ horizon →
        MeasuredExactly start interval now) ↔ horizon < 2 ^ 53) ∧
    (∀ (now delay interval : ℕ) (t : Notifier) (events : List TimerEvent),
      initNotifier now delay interval = some t → (t.run events).now < 2 ^ 53 →
      ∀ i, ((t.run events).iterators i).InStep (t.run events).start (t.run events).interval
        (t.run events).now) ∧
    ∀ (H : Type) [DecidableEq H] (requests : List (Request H)),
      Sorted (performAll requests).deadlines := by
  refine ⟨⟨?_, ?_⟩, ?_, ?_⟩
  · intro h
    by_contra hle
    obtain ⟨m, hm, hexact⟩ := h 0 (2 ^ 53 + 1) (2 ^ 53) (by decide) (not_lt.mp hle)
    exact not_exact_ahead hm hexact
  · intro hlt start interval now hinterval hnow
    exact measureInterval_exact hinterval (hnow.trans_lt hlt)
  · intro now delay interval t events ht hnow i
    obtain ⟨hinv, -⟩ := (initNotifier_valid ht).run hnow
    constructor
    · rw [List.pairwise_reverse]
      exact hinv.decreasing i
    · exact hinv.received i
  · intro H _ requests
    exact (performAll_ordered requests).1

/-- Started at 15, every 10: read late, then twice for the next. -/
theorem schedules_exact_reads : ∃ t, initNotifier 5 10 10 = some t ∧
    let u := t.run [.poll 27, .next 0, .next 0, .poll 38, .wake, .next 0, .poll 47, .wake]
    ((u.iterators 0).received = [⟨45, some 4⟩, ⟨35, some 3⟩, ⟨25, some 2⟩]) ∧
      ∀ i, (u.iterators i).InStep u.start u.interval u.now :=
  ⟨_, rfl, by decide +kernel, (schedules_exact_iff 0).2.1 5 10 10 _ _ rfl (by decide +kernel)⟩

end AgoricSdk.Timer
