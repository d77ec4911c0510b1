import AgoricSdk.Portfolio.ScheduleOrder

/-!
The runs of a job. Its tasks are started once they are ready and end one after the
other; when one fails, those that depend on it are skipped. What has been completed
could be completed alone in an order that respects the dependencies, and every set
that could be is one that some run has completed.
-/

namespace AgoricSdk.Portfolio

structure JobState where
  schedule : Schedule
  running : List Nat := []
  rejected : List Nat := []
  completed : List Nat := []

/-- Each call rejects a task more, which bounds the depth. -/
def failTaskAndAncestors : Nat → JobState → Nat → JobState
  | 0, s, _ => s
  | fuel + 1, s, ix =>
    if ix ∈ s.rejected then s
    else
      let schedule := s.schedule.cancel ix
      let s := { s with schedule, rejected := ix :: s.rejected }
      (schedule.dependents ix).foldl (failTaskAndAncestors fuel) s

/-- Start the tasks that are ready. -/
def startReady (s : JobState) : JobState :=
  let (runnable, schedule) := s.schedule.ready
  { s with schedule, running := s.running ++ runnable }

inductive JobAction where
  /-- A running task fails. -/
  | rejects (ix : Nat)
  /-- A running task is the first that is found to have ended. -/
  | wins (ix : Nat)
  deriving DecidableEq

def runJobStep (taskQty : Nat) (s : JobState) : JobAction → Option JobState
  | .rejects ix =>
    if ix ∈ s.running then some (failTaskAndAncestors (taskQty + 1) s ix) else none
  | .wins ix =>
    if ix ∈ s.running then
      let s := { s with running := s.running.filter fun task => task ≠ ix }
      let s := if ix ∈ s.rejected then s else
        { s with schedule := s.schedule.complete ix, completed := ix :: s.completed }
      some (startReady s)
    else none

def runJob (job : Job) : TransitionSystem JobState JobAction where
  init s := ∃ schedule, makeSchedule job = .ok schedule ∧ s = startReady { schedule }
  step := runJobStep job.taskQty

section Tracking

variable {qty : Nat} {orderArray : JobOrder} {order : Dependencies}

/-- The dependencies of a schedule are those not completed yet. -/
def Tracks (order : Dependencies) (completed : List Nat) (s : Schedule) : Prop :=
  ∀ i, s.dependencies.get i =
    let deps := ((order.get i).getD []).filter fun dep => dep ∉ completed
    if deps = [] then none else some deps

theorem tracks_start (h : Normalized qty orderArray order) (todo : List Nat) :
    Tracks order [] { todo, dependencies := order } := by
  intro i
  dsimp only
  have hall : ∀ deps : List Nat, (deps.filter fun dep => dep ∉ ([] : List Nat)) = deps :=
    fun deps => List.filter_eq_self.mpr fun _ _ => rfl
  rw [hall]
  cases hi : order.get i with
  | none => rfl
  | some deps => exact (if_neg (h.nonempty i deps hi)).symm

theorem Tracks.complete {completed : List Nat} {s : Schedule} (h : Tracks order completed s)
    (c : Nat) : Tracks order (c :: completed) (s.complete c) := by
  intro i
  have hfilter : (((order.get i).getD []).filter fun dep => dep ∉ c :: completed) =
      (((order.get i).getD []).filter fun dep => dep ∉ completed).filter fun dep => dep ≠ c := by
    rw [List.filter_filter]
    apply List.filter_congr
    intro dep _
    simp [List.mem_cons, not_or]
  dsimp only
  rw [hfilter, Schedule.complete]
  dsimp only
  rw [Record.get_filterMap, h i]
  dsimp only
  split
  case isTrue hnone => rw [hnone]; rfl
  case isFalse => rfl

theorem Tracks.has_iff {completed : List Nat} {s : Schedule} (h : Tracks order completed s)
    (i : Nat) : s.dependencies.has i = true ↔ ∃ j, Requires order i j ∧ j ∉ completed := by
  unfold Record.has
  rw [h i]
  dsimp only
  unfold Requires
  constructor
  · intro hsome
    split at hsome
    case isTrue => cases hsome
    case isFalse hne =>
      obtain ⟨j, hj⟩ := List.exists_mem_of_ne_nil _ hne
      obtain ⟨hmem, hout⟩ := List.mem_filter.mp hj
      exact ⟨j, hmem, by simpa using hout⟩
  · rintro ⟨j, hj, hout⟩
    have hne : (((order.get i).getD []).filter fun dep => dep ∉ completed) ≠ [] :=
      List.ne_nil_of_mem (List.mem_filter.mpr ⟨hj, by simpa using hout⟩)
    rw [if_neg hne]
    rfl

theorem Tracks.ready {completed : List Nat} {s : Schedule} (h : Tracks order completed s) :
    (∀ i, i ∈ s.ready.1 ↔ i ∈ s.todo ∧ ∀ j, Requires order i j → j ∈ completed) ∧
      (∀ i, i ∈ s.ready.2.todo ↔ i ∈ s.todo ∧ ∃ j, Requires order i j ∧ j ∉ completed) ∧
      Tracks order completed s.ready.2 := by
  refine ⟨?_, ?_, h⟩
  · intro i
    unfold Schedule.ready
    rw [List.mem_filter, decide_eq_true_eq, h.has_iff]
    simp only [not_exists, not_and, not_not]
  · intro i
    unfold Schedule.ready
    rw [List.mem_filter, h.has_iff]

end Tracking

section Runs

variable {job : Job} {order : Dependencies} {s s' : JobState}

/-- What a job has completed respects the order, and what runs has all it requires. -/
structure JobKept (qty : Nat) (order : Dependencies) (s : JobState) : Prop where
  completable : Completable (Requires order) s.completed.toFinset
  tracks : Tracks order s.completed s.schedule
  started : ∀ i ∈ s.running, i < qty ∧ ∀ j, Requires order i j → j ∈ s.completed
  within : ∀ i ∈ s.schedule.todo, i < qty
  finished : ∀ i ∈ s.completed, i < qty

theorem failTaskAndAncestors_frame (fuel : Nat) (s : JobState) (ix : Nat) :
    (failTaskAndAncestors fuel s ix).running = s.running ∧
      (failTaskAndAncestors fuel s ix).completed = s.completed ∧
      (failTaskAndAncestors fuel s ix).schedule.dependencies = s.schedule.dependencies ∧
      ∀ i ∈ (failTaskAndAncestors fuel s ix).schedule.todo, i ∈ s.schedule.todo := by
  induction fuel generalizing s ix with
  | zero => exact ⟨rfl, rfl, rfl, fun i hi => hi⟩
  | succ fuel ih =>
    have hfold : ∀ (candidates : List Nat) (s : JobState),
        (candidates.foldl (failTaskAndAncestors fuel) s).running = s.running ∧
          (candidates.foldl (failTaskAndAncestors fuel) s).completed = s.completed ∧
          (candidates.foldl (failTaskAndAncestors fuel) s).schedule.dependencies =
            s.schedule.dependencies ∧
          ∀ i ∈ (candidates.foldl (failTaskAndAncestors fuel) s).schedule.todo,
            i ∈ s.schedule.todo := by
      intro candidates
      induction candidates with
      | nil => exact fun s => ⟨rfl, rfl, rfl, fun i hi => hi⟩
      | cons candidate candidates ihc =>
        intro s
        obtain ⟨hrunning, hcompleted, hdependencies, htodo⟩ := ih s candidate
        obtain ⟨hrunning', hcompleted', hdependencies', htodo'⟩ :=
          ihc (failTaskAndAncestors fuel s candidate)
        rw [List.foldl_cons]
        exact ⟨hrunning'.trans hrunning, hcompleted'.trans hcompleted,
          hdependencies'.trans hdependencies, fun i hi => htodo i (htodo' i hi)⟩
    unfold failTaskAndAncestors
    split
    · exact ⟨rfl, rfl, rfl, fun i hi => hi⟩
    · dsimp only
      obtain ⟨hrunning, hcompleted, hdependencies, htodo⟩ :=
        hfold ((s.schedule.cancel ix).dependents ix)
          { s with schedule := s.schedule.cancel ix, rejected := ix :: s.rejected }
      refine ⟨hrunning, hcompleted, hdependencies, ?_⟩
      intro i hi
      exact List.mem_of_mem_filter (htodo i hi)

theorem JobKept.rejects {qty : Nat} (h : JobKept qty order s) (fuel ix : Nat) :
    JobKept qty order (failTaskAndAncestors fuel s ix) := by
  obtain ⟨hrunning, hcompleted, hdependencies, htodo⟩ := failTaskAndAncestors_frame fuel s ix
  constructor
  case completable =>
    rw [hcompleted]
    exact h.completable
  case tracks =>
    rw [hcompleted]
    intro i
    rw [hdependencies]
    exact h.tracks i
  case started =>
    rw [hrunning, hcompleted]
    exact h.started
  case within => exact fun i hi => h.within i (htodo i hi)
  case finished =>
    rw [hcompleted]
    exact h.finished

theorem JobKept.startReady {qty : Nat} (h : JobKept qty order s) :
    JobKept qty order (startReady s) := by
  obtain ⟨hready, htodo, htracks⟩ := h.tracks.ready
  constructor
  case completable => exact h.completable
  case tracks => exact htracks
  case started =>
    intro i hi
    rcases List.mem_append.mp hi with hi | hi
    · exact h.started i hi
    · obtain ⟨hmem, hrequires⟩ := (hready i).mp hi
      exact ⟨h.within i hmem, hrequires⟩
  case within => exact fun i hi => h.within i ((htodo i).mp hi).1
  case finished => exact h.finished

theorem JobKept.complete {qty : Nat} (h : JobKept qty order s) {ix : Nat} (hix : ix ∈ s.running)
    {running : List Nat} (hsub : ∀ i ∈ running, i ∈ s.running) :
    JobKept qty order { s with
      running
      schedule := s.schedule.complete ix
      completed := ix :: s.completed } := by
  have hmono : ∀ j ∈ s.completed, j ∈ ix :: s.completed := fun j hj => List.mem_cons_of_mem _ hj
  constructor
  case completable =>
    dsimp only
    rw [List.toFinset_cons]
    apply h.completable.complete
    intro j hj
    exact List.mem_toFinset.mpr ((h.started ix hix).2 j hj)
  case tracks => exact h.tracks.complete ix
  case started =>
    intro i hi
    obtain ⟨hlt, hrequires⟩ := h.started i (hsub i hi)
    exact ⟨hlt, fun j hj => hmono j (hrequires j hj)⟩
  case within => exact h.within
  case finished =>
    intro i hi
    rcases List.mem_cons.mp hi with rfl | hi
    · exact (h.started i hix).1
    · exact h.finished i hi

theorem JobKept.step {a : JobAction} {qty : Nat} (h : JobKept qty order s)
    (hstep : runJobStep qty s a = some s') : JobKept qty order s' := by
  cases a with
  | rejects ix =>
    unfold runJobStep at hstep
    dsimp only at hstep
    split at hstep
    case isTrue =>
      cases hstep
      exact h.rejects _ ix
    case isFalse => cases hstep
  | wins ix =>
    unfold runJobStep at hstep
    dsimp only at hstep
    split at hstep
    case isFalse => cases hstep
    case isTrue hix =>
      cases hstep
      have hsub : ∀ i ∈ s.running.filter fun task => task ≠ ix, i ∈ s.running :=
        fun i hi => List.mem_of_mem_filter hi
      apply JobKept.startReady
      split
      · exact { h with started := fun i hi => h.started i (hsub i hi) }
      · exact h.complete hix hsub

theorem jobKept_start (hmake : makeDependencies job.taskQty job.order = .ok order) :
    JobKept job.taskQty order
      { schedule := { todo := List.range job.taskQty, dependencies := order } } where
  completable := .empty
  tracks := tracks_start (makeDependencies_ok hmake).1 _
  started := nofun
  within _ hi := List.mem_range.mp hi
  finished := nofun

theorem init_iff (hmake : makeDependencies job.taskQty job.order = .ok order) :
    (runJob job).init s ↔
      s = startReady { schedule := { todo := List.range job.taskQty, dependencies := order } } := by
  have hschedule : makeSchedule job =
      .ok { todo := List.range job.taskQty, dependencies := order } := by
    unfold makeSchedule
    rw [hmake]
    rfl
  constructor
  · rintro ⟨schedule, hrun, rfl⟩
    rw [hschedule] at hrun
    cases hrun
    rfl
  · intro hs
    exact ⟨_, hschedule, hs⟩

theorem completable_of_reachable (hmake : makeDependencies job.taskQty job.order = .ok order)
    (h : (runJob job).Reachable TransitionSystem.anyStep s) :
    Completable (Requires order) s.completed.toFinset ∧ ∀ i ∈ s.completed, i < job.taskQty := by
  have hkept : JobKept job.taskQty order s := by
    apply h.invariant
    · intro s hs
      rw [(init_iff hmake).mp hs]
      exact (jobKept_start hmake).startReady
    · exact fun s a s' hs _ hstep => hs.step hstep
  exact ⟨hkept.completable, hkept.finished⟩

/-- No task is lost: those not completed run, or wait for one that is not completed. -/
structure Unfailed (qty : Nat) (order : Dependencies) (s : JobState) : Prop where
  kept : JobKept qty order s
  none : s.rejected = []
  all : ∀ i < qty, i ∈ s.completed ∨ i ∈ s.running ∨ i ∈ s.schedule.todo
  waits : ∀ i ∈ s.schedule.todo, ∃ j, Requires order i j ∧ j ∉ s.completed

theorem unfailed_startReady {qty : Nat} (h : JobKept qty order s) (hnone : s.rejected = [])
    (hall : ∀ i < qty, i ∈ s.completed ∨ i ∈ s.running ∨ i ∈ s.schedule.todo) :
    Unfailed qty order (startReady s) := by
  obtain ⟨hready, htodo, -⟩ := h.tracks.ready
  constructor
  case kept => exact h.startReady
  case none => exact hnone
  case all =>
    intro i hi
    rcases hall i hi with hdone | hrun | hwait
    · exact .inl hdone
    · exact .inr (.inl (List.mem_append_left _ hrun))
    · by_cases hblocked : ∃ j, Requires order i j ∧ j ∉ s.completed
      · exact .inr (.inr ((htodo i).mpr ⟨hwait, hblocked⟩))
      · have hrequires : ∀ j, Requires order i j → j ∈ s.completed := by
          simpa only [not_exists, not_and, not_not] using hblocked
        exact .inr (.inl (List.mem_append_right _ ((hready i).mpr ⟨hwait, hrequires⟩)))
  case waits => exact fun i hi => ((htodo i).mp hi).2

theorem exists_reachable (job : Job) (hmake : makeDependencies job.taskQty job.order = .ok order)
    {S : Finset Nat} (hS : Completable (Requires order) S)
    (hwithin : ∀ i ∈ S, i < job.taskQty) :
    ∃ s, (runJob job).Reachable TransitionSystem.anyStep s ∧ s.completed.toFinset = S := by
  suffices hrun : ∃ s, (runJob job).Reachable TransitionSystem.anyStep s ∧
      s.completed.toFinset = S ∧ Unfailed job.taskQty order s by
    obtain ⟨s, hs, hcompleted, -⟩ := hrun
    exact ⟨s, hs, hcompleted⟩
  induction hS with
  | empty =>
    refine ⟨_, .init ((init_iff hmake).mpr rfl), rfl, ?_⟩
    exact unfailed_startReady (jobKept_start hmake) rfl
      fun i hi => .inr (.inr (List.mem_range.mpr hi))
  | @complete S v _ hrequires ih =>
    obtain ⟨s, hs, hcompleted, hunfailed⟩ :=
      ih fun i hi => hwithin i (Finset.mem_insert_of_mem hi)
    have hmem : ∀ i, i ∈ S ↔ i ∈ s.completed := by
      intro i
      rw [← hcompleted, List.mem_toFinset]
    by_cases hv : v ∈ S
    · rw [Finset.insert_eq_of_mem hv]
      exact ⟨s, hs, hcompleted, hunfailed⟩
    have hrunning : v ∈ s.running := by
      rcases hunfailed.all v (hwithin v (Finset.mem_insert_self v S)) with hdone | hrun | hwait
      · exact absurd ((hmem v).mpr hdone) hv
      · exact hrun
      · obtain ⟨j, hj, hout⟩ := hunfailed.waits v hwait
        exact absurd ((hmem j).mp (hrequires j hj)) hout
    let t : JobState := { s with
      running := s.running.filter fun task => task ≠ v
      schedule := s.schedule.complete v
      completed := v :: s.completed }
    have hrejected : v ∉ s.rejected := by
      rw [hunfailed.none]
      exact List.not_mem_nil
    have hstep : (runJob job).step s (.wins v) = some (startReady t) := by
      unfold runJob runJobStep
      dsimp only
      rw [if_pos hrunning, if_neg hrejected]
    refine ⟨startReady t, .step hs trivial hstep, ?_, ?_⟩
    · show (v :: s.completed).toFinset = insert v S
      rw [List.toFinset_cons, hcompleted]
    · apply unfailed_startReady
      · exact hunfailed.kept.complete hrunning fun i hi => List.mem_of_mem_filter hi
      · exact hunfailed.none
      · intro i hi
        rcases hunfailed.all i hi with hdone | hrun | hwait
        · exact .inl (List.mem_cons_of_mem _ hdone)
        · by_cases heq : i = v
          · exact .inl (heq ▸ List.mem_cons_self)
          · exact .inr (.inl (List.mem_filter.mpr ⟨hrun, by simpa using heq⟩))
        · exact .inr (.inr hwait)

end Runs

end AgoricSdk.Portfolio
