import AgoricSdk.Lib.Program
import AgoricSdk.Timer.Numbers
import Mathlib.Data.List.Sort

/-!
The deadlines of the timer device: a list of times with the handlers to wake at each,
kept sorted, which is written with the rest of the device's state and read on restart.
-/

namespace AgoricSdk.Timer

open StateProgram

variable {H : Type}

structure IndexedHandler (H : Type) where
  handler : H
  index : Option ℕ := none
  deriving DecidableEq

structure Event (H : Type) where
  time : ℤ
  handlers : List (IndexedHandler H) := []
  deriving DecidableEq

/-- Where the record of a time is. The search gives up at a later time. -/
def indexOfTime (time : ℤ) : List (Event H) → Option ℕ
  | [] => none
  | e :: schedule =>
    if e.time ≤ time then
      if e.time = time then some 0 else (indexOfTime time schedule).map (· + 1)
    else none

/-- A new record goes to the end, out of order. -/
def eventsFor (schedule : List (Event H)) (time : ℤ) : List (Event H) × ℕ :=
  match indexOfTime time schedule with
  | some i => (schedule, i)
  | none => (schedule ++ [{ time }], schedule.length)

/-- The difference of two integers, as the number a sort asks for. -/
def compareTimes (a b : Event H) : Number := .ofBigInt (a.time - b.time)

def sortSchedule (schedule : List (Event H)) : List (Event H) :=
  schedule.mergeSort fun a b => !(compareTimes a b).isPositive

def add (schedule : List (Event H)) (time : ℤ) (record : IndexedHandler H) : List (Event H) :=
  let (schedule, i) := eventsFor schedule time
  sortSchedule (schedule.modify i fun e => { e with handlers := e.handlers ++ [record] })

/-- The events taken, and those left. -/
def removeEventsThrough (schedule : List (Event H)) (target : ℤ) :
    List (Event H) × List (Event H) :=
  (schedule.takeWhile (·.time ≤ target), schedule.dropWhile (·.time ≤ target))

/-- The schedule left, and the times removed, one for each time the handler appears. -/
def remove [DecidableEq H] (schedule : List (Event H)) (targetHandler : H) :
    List (Event H) × List ℤ :=
  let droppedTimes := schedule.flatMap fun e =>
    (e.handlers.filter (·.handler = targetHandler)).map fun _ => e.time
  let left := schedule.map fun e =>
    { e with handlers := e.handlers.filter (·.handler ≠ targetHandler) }
  (left.filter (¬·.handlers.isEmpty), droppedTimes)

def Sorted (schedule : List (Event H)) : Prop := schedule.Pairwise (·.time < ·.time)

section TimerMap

variable {schedule : List (Event H)} {time target : ℤ} {record : IndexedHandler H}

theorem compareTimes_isPositive (a b : Event H) :
    (compareTimes a b).isPositive = true ↔ b.time < a.time := by
  rw [compareTimes, Number.ofBigInt_isPositive, sub_pos]

theorem indexOfTime_eq_none (hsorted : Sorted schedule) (h : indexOfTime time schedule = none) :
    ∀ e ∈ schedule, e.time ≠ time := by
  induction schedule with
  | nil => exact nofun
  | cons e schedule ih =>
    obtain ⟨hhead, htail⟩ := List.pairwise_cons.mp hsorted
    rw [indexOfTime] at h
    split_ifs at h with hle heq
    · exact List.forall_mem_cons.mpr ⟨heq, ih htail (Option.map_eq_none_iff.mp h)⟩
    · rw [List.forall_mem_cons]
      constructor
      · omega
      · intro e' he'
        have hlt := hhead e' he'
        omega

theorem indexOfTime_eq_some {i : ℕ} (h : indexOfTime time schedule = some i) :
    ∃ e, schedule[i]? = some e ∧ e.time = time := by
  induction schedule generalizing i with
  | nil => cases h
  | cons e schedule ih =>
    rw [indexOfTime] at h
    split_ifs at h with hle heq
    · cases h
      exact ⟨e, rfl, heq⟩
    · obtain ⟨j, hj, rfl⟩ := Option.map_eq_some_iff.mp h
      exact ih hj

theorem eventsFor_spec (hsorted : Sorted schedule) :
    (∃ e, (eventsFor schedule time).1[(eventsFor schedule time).2]? = some e ∧ e.time = time) ∧
      ((eventsFor schedule time).1.map Event.time).Nodup := by
  have hnodup : (schedule.map Event.time).Nodup := by
    rw [List.nodup_iff_pairwise_ne, List.pairwise_map]
    exact hsorted.imp fun hlt => hlt.ne
  unfold eventsFor
  cases hi : indexOfTime time schedule with
  | some i => exact ⟨indexOfTime_eq_some hi, hnodup⟩
  | none =>
    constructor
    · exact ⟨{ time }, by simp, rfl⟩
    · rw [List.map_append, List.nodup_append]
      refine ⟨hnodup, by simp, ?_⟩
      intro t ht t' ht'
      obtain ⟨e, he, rfl⟩ := List.mem_map.mp ht
      rw [List.map_singleton, List.mem_singleton] at ht'
      rw [ht']
      exact indexOfTime_eq_none hsorted hi e he

theorem map_time_modify (schedule : List (Event H)) (i : ℕ) (record : IndexedHandler H) :
    (schedule.modify i fun e => { e with handlers := e.handlers ++ [record] }).map Event.time =
      schedule.map Event.time := by
  induction schedule generalizing i with
  | nil => simp
  | cons e schedule ih =>
    cases i with
    | zero => rfl
    | succ i => simpa using ih i

theorem sortSchedule_sorted (hnodup : (schedule.map Event.time).Nodup) :
    Sorted (sortSchedule schedule) := by
  have hle : (sortSchedule schedule).Pairwise fun a b => a.time ≤ b.time := by
    have hpairwise : (sortSchedule schedule).Pairwise
        fun a b => (!(compareTimes a b).isPositive) = true :=
      List.pairwise_mergeSort ?_ ?_ schedule
    · apply hpairwise.imp
      intro a b h
      have hnot : ¬ (compareTimes a b).isPositive = true := by simpa using h
      rw [compareTimes_isPositive] at hnot
      omega
    · intro a b c hab hbc
      simp only [Bool.not_eq_true', ← Bool.not_eq_true, compareTimes_isPositive] at hab hbc ⊢
      omega
    · intro a b
      simp only [Bool.or_eq_true, Bool.not_eq_true', ← Bool.not_eq_true, compareTimes_isPositive]
      omega
  have hne : (sortSchedule schedule).Pairwise fun a b => a.time ≠ b.time := by
    have hperm := (List.mergeSort_perm schedule
      fun a b => !(compareTimes a b).isPositive).map Event.time
    rw [← List.pairwise_map]
    exact hperm.nodup_iff.mpr hnodup
  exact (hle.and hne).imp fun h => lt_of_le_of_ne h.1 h.2

theorem add_sorted (hsorted : Sorted schedule) : Sorted (add schedule time record) := by
  apply sortSchedule_sorted
  rw [map_time_modify]
  exact (eventsFor_spec hsorted).2

theorem removeEventsThrough_sorted (hsorted : Sorted schedule) :
    Sorted (removeEventsThrough schedule target).2 :=
  hsorted.sublist (List.dropWhile_sublist _)

theorem remove_sorted [DecidableEq H] (hsorted : Sorted schedule) (targetHandler : H) :
    Sorted (remove schedule targetHandler).1 := by
  apply List.Pairwise.filter
  rw [List.pairwise_map]
  exact hsorted

end TimerMap

structure Repeater where
  startTime : ℕ
  interval : ℕ
  deriving DecidableEq

/-- What the device saves. -/
structure DeviceState (H : Type) where
  lastPolled : ℤ := 0
  nextRepeater : ℕ := 0
  repeaters : List (Option Repeater) := []
  deadlines : List (Event H) := []
  deriving DecidableEq

structure Device (H : Type) extends DeviceState H where
  saved : DeviceState H := {}
  /-- The `wake` messages sent, the latest last. -/
  wakes : List (H × ℤ) := []
  deriving DecidableEq

/-- A fault is an exception: the changes made before it stay. -/
abbrev DeviceM (H : Type) := EStateM Unit (Device H)

def assertNat (n : ℤ) : DeviceM H ℕ :=
  match n with
  | .ofNat n => pure n
  | .negSucc _ => throw ()

def saveState : DeviceM H Unit := modify fun d => { d with saved := d.toDeviceState }

def addDeadline (time : ℤ) (record : IndexedHandler H) : DeviceM H Unit :=
  modify fun d => { d with deadlines := add d.deadlines time record }

def wake (handler : H) (time : ℤ) : DeviceM H Unit :=
  modify fun d => { d with wakes := d.wakes ++ [(handler, time)] }

/-- The remainder of integers has the sign of the dividend. -/
def nextScheduleTime (index : ℕ) (repeaters : List (Option Repeater)) (lastPolled : ℤ) :
    DeviceM H ℤ :=
  match repeaters[index]? with
  | some (some r) =>
    if r.interval = 0 then throw ()
    else pure (lastPolled + r.interval - (lastPolled - r.startTime).tmod r.interval)
  | _ => throw ()

def wakeHandler (time : ℤ) (record : IndexedHandler H) : DeviceM H Unit := do
  wake record.handler time
  match record.index with
  | none => pure ()
  | some index =>
    let d ← get
    match d.repeaters[index]? with
    | some (some _) => do
      let next ← nextScheduleTime index d.repeaters d.lastPolled
      addDeadline next record
    | _ => pure ()

def wakeEvent (e : Event H) : DeviceM H Unit := e.handlers.forM (wakeHandler e.time)

def updateTime (time : ℤ) : DeviceM H Unit := do
  let d ← get
  if d.lastPolled ≤ time then do
    modify fun d => { d with lastPolled := time }
    saveState
  else throw ()

def takeEventsThrough (target : ℤ) : DeviceM H (List (Event H)) :=
  modifyGet fun d =>
    let (taken, deadlines) := removeEventsThrough d.deadlines target
    (taken, { d with deadlines })

def poll (now : ℤ) : DeviceM H Unit := do
  updateTime now
  let timeAndEvents ← takeEventsThrough now
  timeAndEvents.forM wakeEvent
  let wokeAnything := timeAndEvents.any fun e => !e.handlers.isEmpty
  (if wokeAnything then saveState else pure ())

def setWakeup (baseTime : ℤ) (handler : H) : DeviceM H Unit := do
  let baseTime ← assertNat baseTime
  addDeadline baseTime { handler }
  saveState

def removeWakeup [DecidableEq H] (handler : H) : DeviceM H Unit := do
  modify fun d => { d with deadlines := (remove d.deadlines handler).1 }
  saveState

def makeRepeater (startTime interval : ℤ) : DeviceM H Unit := do
  let startTime ← assertNat startTime
  let interval ← assertNat interval
  modify fun d => { d with
    repeaters := d.repeaters ++ [some { startTime, interval }], nextRepeater := d.nextRepeater + 1 }
  saveState

/-- Assigning beyond the end of an array leaves holes. -/
def deleteRepeater (index : ℕ) : DeviceM H Unit := do
  modify fun d => { d with
    repeaters := (d.repeaters ++ List.replicate (index + 1 - d.repeaters.length) none).set
      index none }
  saveState

def schedule (index : ℕ) (handler : H) : DeviceM H Unit := do
  let d ← get
  let nextTime ← nextScheduleTime index d.repeaters d.lastPolled
  addDeadline nextTime { handler, index := some index }
  saveState

def restart : DeviceM H Unit := modify fun d => { d with toDeviceState := d.saved }

inductive Request (H : Type) where
  | poll (now : ℤ)
  | setWakeup (baseTime : ℤ) (handler : H)
  | removeWakeup (handler : H)
  | makeRepeater (startTime interval : ℤ)
  | deleteRepeater (index : ℕ)
  | schedule (index : ℕ) (handler : H)
  | restart

def Request.perform [DecidableEq H] : Request H → DeviceM H Unit
  | .poll now => Timer.poll now
  | .setWakeup baseTime handler => Timer.setWakeup baseTime handler
  | .removeWakeup handler => Timer.removeWakeup handler
  | .makeRepeater startTime interval => Timer.makeRepeater startTime interval
  | .deleteRepeater index => Timer.deleteRepeater index
  | .schedule index handler => Timer.schedule index handler
  | .restart => Timer.restart

def performAll [DecidableEq H] (requests : List (Request H)) : Device H :=
  requests.foldl (fun d request => finalState request.perform d) {}

section DeviceRuns

/-- What is in memory is sorted, and so is what a restart would read. -/
def Device.Ordered (d : Device H) : Prop := Sorted d.deadlines ∧ Sorted d.saved.deadlines

/-- A program that keeps the deadlines in order, whether it throws or not. -/
abbrev KeepsOrder {α : Type} (m : DeviceM H α) : Prop :=
  Moves (fun d d' : Device H => d.Ordered → d'.Ordered) m

instance : IsPreorder (Device H) (fun d d' => d.Ordered → d'.Ordered) where
  refl _ h := h
  trans _ _ _ h h' hd := h' (h hd)

instance keeps_saveState : KeepsOrder (saveState : DeviceM H Unit) :=
  moves_modify fun _ h => ⟨h.1, h.1⟩

instance keeps_addDeadline (time : ℤ) (record : IndexedHandler H) :
    KeepsOrder (addDeadline time record) :=
  moves_modify fun _ h => ⟨add_sorted h.1, h.2⟩

instance keeps_wake (handler : H) (time : ℤ) : KeepsOrder (wake handler time) :=
  moves_modify fun _ h => h

instance keeps_nextScheduleTime (index : ℕ) (repeaters : List (Option Repeater)) (lastPolled : ℤ) :
    KeepsOrder (nextScheduleTime index repeaters lastPolled : DeviceM H ℤ) := by
  unfold nextScheduleTime
  split <;> infer_instance

instance keeps_wakeHandler (time : ℤ) (record : IndexedHandler H) :
    KeepsOrder (wakeHandler time record) := by
  unfold wakeHandler
  apply moves_seq (keeps_wake _ _)
  intro _
  split
  · infer_instance
  · apply moves_seq moves_get
    intro d
    split <;> infer_instance

instance keeps_wakeEvent (e : Event H) : KeepsOrder (wakeEvent e) :=
  moves_forM e.handlers

instance keeps_assertNat (n : ℤ) : KeepsOrder (assertNat n : DeviceM H ℕ) := by
  unfold assertNat
  split <;> infer_instance

instance keeps_updateTime (time : ℤ) : KeepsOrder (updateTime time : DeviceM H Unit) := by
  unfold updateTime
  apply moves_seq moves_get
  intro d
  have hset : KeepsOrder (modify fun d => { d with lastPolled := time } : DeviceM H Unit) :=
    moves_modify fun _ h => h
  split <;> infer_instance

instance keeps_takeEventsThrough (target : ℤ) :
    KeepsOrder (takeEventsThrough target : DeviceM H (List (Event H))) :=
  ⟨fun _ h => ⟨removeEventsThrough_sorted h.1, h.2⟩⟩

variable [DecidableEq H]

theorem Request.keeps_order (request : Request H) : KeepsOrder request.perform := by
  cases request with
  | poll now =>
    change KeepsOrder (Timer.poll now)
    unfold Timer.poll
    infer_instance
  | setWakeup baseTime handler =>
    change KeepsOrder (Timer.setWakeup baseTime handler)
    unfold Timer.setWakeup
    infer_instance
  | removeWakeup handler =>
    have hremove : KeepsOrder (modify fun d => { d with
        deadlines := (remove d.deadlines handler).1 } : DeviceM H Unit) :=
      moves_modify fun _ h => ⟨remove_sorted h.1 handler, h.2⟩
    exact moves_seq hremove fun _ => keeps_saveState
  | makeRepeater startTime interval =>
    have hpush (r : Repeater) : KeepsOrder (modify fun d => { d with
        repeaters := d.repeaters ++ [some r], nextRepeater := d.nextRepeater + 1 } :
        DeviceM H Unit) :=
      moves_modify fun _ h => h
    apply moves_seq (keeps_assertNat startTime)
    intro startTime
    apply moves_seq (keeps_assertNat interval)
    intro interval
    exact moves_seq (hpush _) fun _ => keeps_saveState
  | deleteRepeater index =>
    have hdelete : KeepsOrder (modify fun d => { d with
        repeaters := (d.repeaters ++ List.replicate (index + 1 - d.repeaters.length) none).set
          index none } : DeviceM H Unit) :=
      moves_modify fun _ h => h
    exact moves_seq hdelete fun _ => keeps_saveState
  | schedule index handler =>
    change KeepsOrder (Timer.schedule index handler)
    unfold Timer.schedule
    infer_instance
  | restart => exact moves_modify fun _ h => ⟨h.2, h.2⟩

theorem performAll_ordered (requests : List (Request H)) : (performAll requests).Ordered := by
  have hall (d : Device H) (h : d.Ordered) :
      (requests.foldl (fun d request => finalState request.perform d) d).Ordered := by
    induction requests generalizing d with
    | nil => exact h
    | cons request requests ih => exact ih _ (request.keeps_order.rel d h)
  exact hall {} ⟨.nil, .nil⟩

end DeviceRuns

end AgoricSdk.Timer
