import AgoricSdk.Portfolio.JobRuns

/-!
The loop that runs a job, with every way in which its tasks can end: they fulfil,
reject, or throw when they are called. Each task is started once at most, after all
it depends on; those that depend on one that failed are skipped, and the loop ends.
-/

namespace AgoricSdk.Portfolio

/-- What can be seen of a job while it runs. -/
inductive JobEvent where
  | started (ix : Nat) (running : List Nat)
  | threw (ix : Nat)
  | fulfilled (ix : Nat)
  | rejected (ix : Nat)
  deriving DecidableEq

inductive LoopStatus where
  /-- The loop awaits the first of the running tasks. -/
  | awaiting
  | ended
  /-- No task is ready and none is running. -/
  | stuck
  deriving DecidableEq

inductive TaskStatus where
  | fulfilled
  | rejected
  deriving DecidableEq

structure JobLoop where
  job : JobState
  /-- The tasks whose promise in `running` is resolved. -/
  settled : List Nat := []
  log : List JobEvent := []
  status : LoopStatus := .awaiting

def startTask (taskQty : Nat) (throws : List Nat) (s : JobLoop) (ix : Nat) : JobLoop :=
  let running := s.job.running ++ [ix]
  let log := s.log ++ [.started ix running]
  if ix ∈ throws then
    { s with
      job := { failTaskAndAncestors (taskQty + 1) s.job ix with running }
      log := log ++ [.threw ix] }
  else { s with job := { s.job with running }, log }

/-- Go around the loop, up to where it awaits a task: once some are started or running,
it does. The tasks given throw when they are called. -/
def startRunnable (taskQty : Nat) (throws : List Nat) (s : JobLoop) : JobLoop :=
  if s.job.schedule.pending = true ∨ s.job.running ≠ [] then
    let (runnable, schedule) := s.job.schedule.ready
    let s := { s with job := { s.job with schedule } }
    if runnable = [] ∧ s.job.running = [] then { s with status := .stuck }
    else runnable.foldl (startTask taskQty throws) s
  else { s with status := .ended }

/-- Take a task that has ended off those that run. -/
def finishTask (job : JobState) (ix : Nat) : JobState :=
  let job := { job with running := job.running.filter fun task => task ≠ ix }
  if ix ∈ job.rejected then job else
    { job with schedule := job.schedule.complete ix, completed := ix :: job.completed }

inductive LoopAction where
  | fulfils (ix : Nat)
  | rejects (ix : Nat)
  /-- The task is the first that is found to have ended; of those that are ready then,
  the ones given throw. -/
  | wins (ix : Nat) (throws : List Nat)
  deriving DecidableEq

def jobLoopStep (taskQty : Nat) (s : JobLoop) : LoopAction → Option JobLoop
  | .fulfils ix =>
    if ix ∈ s.job.running ∧ ix ∉ s.settled then
      -- A call that threw counts as one whose promise is resolved.
      let log := if .threw ix ∈ s.log then s.log else s.log ++ [.fulfilled ix]
      some { s with settled := ix :: s.settled, log }
    else none
  | .rejects ix =>
    if ix ∈ s.job.running ∧ ix ∉ s.settled ∧ .threw ix ∉ s.log then
      some { s with
        job := failTaskAndAncestors (taskQty + 1) s.job ix
        settled := ix :: s.settled
        log := s.log ++ [.rejected ix] }
    else none
  | .wins ix throws =>
    if s.status = .awaiting ∧ ix ∈ s.job.running ∧ ix ∈ s.settled then
      some (startRunnable taskQty throws { s with job := finishTask s.job ix })
    else none

def jobLoop (job : Job) : TransitionSystem JobLoop LoopAction where
  init s := ∃ schedule throws, makeSchedule job = .ok schedule ∧
    s = startRunnable job.taskQty throws { job := { schedule } }
  step := jobLoopStep job.taskQty

/-- What a job that has ended reports for its tasks. -/
def JobLoop.results (taskQty : Nat) (s : JobLoop) : List TaskStatus :=
  (List.range taskQty).map fun ix => if ix ∈ s.job.rejected then .rejected else .fulfilled

section Logs

/-- The tasks that have been started. -/
def startedTasks (log : List JobEvent) : List Nat :=
  log.filterMap fun
    | .started ix _ => some ix
    | _ => none

def Failed (log : List JobEvent) (ix : Nat) : Prop := .threw ix ∈ log ∨ .rejected ix ∈ log

/-- The task failed, or depends on one that did. -/
def Doomed (requires : Nat → Nat → Prop) (log : List JobEvent) (ix : Nat) : Prop :=
  ∃ j, Failed log j ∧ Relation.ReflTransGen requires ix j

/-- Tasks are started only after all they require have been fulfilled. -/
def InOrder (requires : Nat → Nat → Prop) (log : List JobEvent) : Prop :=
  ∀ before ix running after, log = before ++ .started ix running :: after →
    ∀ j, requires ix j → .fulfilled j ∈ before

variable {requires : Nat → Nat → Prop} {log : List JobEvent} {i : Nat}

theorem startedTasks_append (log log' : List JobEvent) :
    startedTasks (log ++ log') = startedTasks log ++ startedTasks log' := by
  unfold startedTasks
  rw [List.filterMap_append]

@[simp] theorem startedTasks_started (ix : Nat) (running : List Nat) :
    startedTasks [.started ix running] = [ix] := rfl

@[simp] theorem startedTasks_threw (ix : Nat) : startedTasks [.threw ix] = [] := rfl

@[simp] theorem startedTasks_fulfilled (ix : Nat) : startedTasks [.fulfilled ix] = [] := rfl

@[simp] theorem startedTasks_rejected (ix : Nat) : startedTasks [.rejected ix] = [] := rfl

theorem failed_append {log' : List JobEvent} :
    Failed (log ++ log') i ↔ Failed log i ∨ Failed log' i := by
  unfold Failed
  rw [List.mem_append, List.mem_append]
  tauto

theorem InOrder.append (h : InOrder requires log) {e : JobEvent}
    (hstart : ∀ ix running, e = .started ix running → ∀ j, requires ix j → .fulfilled j ∈ log) :
    InOrder requires (log ++ [e]) := by
  intro before ix running after heq
  rcases List.eq_nil_or_concat after with rfl | ⟨after', e', rfl⟩
  · obtain ⟨rfl, he⟩ := List.append_inj' heq rfl
    exact hstart ix running (List.cons.inj he).1
  · rw [List.concat_eq_append, ← List.cons_append, ← List.append_assoc] at heq
    obtain ⟨hlog, -⟩ := List.append_inj' heq rfl
    exact h before ix running after' hlog

end Logs

section Failures

variable {qty : Nat} {order : Dependencies} {s s' s'' : JobState}

theorem mem_dependents {completed : List Nat} {schedule : Schedule}
    (h : Tracks order completed schedule) {i k : Nat} :
    i ∈ schedule.dependents k ↔ Requires order i k ∧ k ∉ completed := by
  unfold Schedule.dependents Requires
  have hget := h i
  dsimp only at hget
  constructor
  · intro hi
    obtain ⟨e, he, rfl⟩ := List.mem_map.mp hi
    obtain ⟨hmem, hk⟩ := List.mem_filter.mp he
    rw [Record.get_eq_some_iff.mpr hmem] at hget
    split at hget
    case isTrue => cases hget
    case isFalse =>
      have hdep := of_decide_eq_true hk
      rw [Option.some.inj hget] at hdep
      obtain ⟨hrequires, hout⟩ := List.mem_filter.mp hdep
      exact ⟨hrequires, of_decide_eq_true hout⟩
  · rintro ⟨hrequires, hout⟩
    have hdep : k ∈ ((order.get i).getD []).filter fun dep => dep ∉ completed :=
      List.mem_filter.mpr ⟨hrequires, decide_eq_true hout⟩
    rw [if_neg (List.ne_nil_of_mem hdep)] at hget
    apply List.mem_map.mpr
    refine ⟨_, List.mem_filter.mpr ⟨Record.get_eq_some_iff.mp hget, ?_⟩, rfl⟩
    exact decide_eq_true hdep

/-- A job some of whose tasks may have failed. -/
structure Failing (qty : Nat) (order : Dependencies) (s : JobState) : Prop where
  tracks : Tracks order s.completed s.schedule
  closed : ∀ i ∈ s.completed, ∀ j, Requires order i j → j ∈ s.completed
  nodup : s.rejected.Nodup
  within : ∀ i ∈ s.rejected, i < qty

/-- What failing tasks comes to: they are rejected, and with each task that is
rejected those that require it; these are off the schedule. -/
structure FailsTo (qty : Nat) (order : Dependencies) (s : JobState) (nodes : List Nat)
    (s' : JobState) : Prop where
  failing : Failing qty order s'
  completed : s'.completed = s.completed
  grows : List.IsSuffix s.rejected s'.rejected
  rejects : ∀ x ∈ nodes, x ∈ s'.rejected
  blames : ∀ i ∈ s'.rejected, i ∈ s.rejected ∨
    ∃ x ∈ nodes, Relation.ReflTransGen (Requires order) i x
  spreads : ∀ k ∈ s'.rejected, k ∉ s.rejected → ∀ i, Requires order i k → i ∈ s'.rejected
  cancels : ∀ i, i ∈ s'.schedule.todo ↔
    i ∈ s.schedule.todo ∧ (i ∈ s'.rejected → i ∈ s.rejected)
  shrinks : List.Sublist s'.schedule.todo s.schedule.todo

theorem FailsTo.refl (h : Failing qty order s) : FailsTo qty order s [] s where
  failing := h
  completed := rfl
  grows := List.suffix_rfl
  rejects := nofun
  blames _ hi := .inl hi
  spreads k hk hnot := absurd hk hnot
  cancels i := by simp
  shrinks := List.Sublist.refl _

theorem FailsTo.cons {x : Nat} {xs : List Nat} (h : FailsTo qty order s [x] s')
    (h' : FailsTo qty order s' xs s'') : FailsTo qty order s (x :: xs) s'' where
  failing := h'.failing
  completed := h'.completed.trans h.completed
  grows := h.grows.trans h'.grows
  rejects y hy := by
    rcases List.mem_cons.mp hy with rfl | hy
    · exact h'.grows.mem (h.rejects y (List.mem_singleton_self y))
    · exact h'.rejects y hy
  blames i hi := by
    rcases h'.blames i hi with hold | ⟨y, hy, hpath⟩
    · rcases h.blames i hold with hold | ⟨y, hy, hpath⟩
      · exact .inl hold
      · rw [List.mem_singleton.mp hy] at hpath
        exact .inr ⟨x, List.mem_cons_self, hpath⟩
    · exact .inr ⟨y, List.mem_cons_of_mem _ hy, hpath⟩
  spreads k hk hnot i hi := by
    by_cases hmid : k ∈ s'.rejected
    · exact h'.grows.mem (h.spreads k hmid hnot i hi)
    · exact h'.spreads k hk hmid i hi
  cancels i := by
    rw [h'.cancels, h.cancels]
    have hmono : i ∈ s.rejected → i ∈ s'.rejected := fun hi => h.grows.mem hi
    have hmono' : i ∈ s'.rejected → i ∈ s''.rejected := fun hi => h'.grows.mem hi
    tauto
  shrinks := h'.shrinks.trans h.shrinks

theorem foldl_failsTo {fuel : Nat} {xs : List Nat}
    (hfails : ∀ s x, Failing qty order s → x ∈ xs → x ∉ s.completed →
      qty < fuel + s.rejected.length → FailsTo qty order s [x] (failTaskAndAncestors fuel s x))
    (h : Failing qty order s) (hxs : ∀ x ∈ xs, x ∉ s.completed)
    (hdeep : qty < fuel + s.rejected.length) :
    FailsTo qty order s xs (xs.foldl (failTaskAndAncestors fuel) s) := by
  induction xs generalizing s with
  | nil => exact .refl h
  | cons x xs ih =>
    rw [List.foldl_cons]
    have hfirst := hfails s x h List.mem_cons_self (hxs x List.mem_cons_self) hdeep
    have hlength := hfirst.grows.length_le
    apply hfirst.cons
    apply ih
    · exact fun s y hs hy => hfails s y hs (List.mem_cons_of_mem _ hy)
    · exact hfirst.failing
    · rw [hfirst.completed]
      exact fun y hy => hxs y (List.mem_cons_of_mem _ hy)
    · omega

theorem failTaskAndAncestors_failsTo (hwithin : ∀ i j, Requires order i j → i < qty)
    {fuel ix : Nat} (h : Failing qty order s) (hix : ix < qty) (hout : ix ∉ s.completed)
    (hdeep : qty < fuel + s.rejected.length) :
    FailsTo qty order s [ix] (failTaskAndAncestors fuel s ix) := by
  induction fuel generalizing s ix with
  | zero =>
    have hlength := length_le_of_nodup h.nodup h.within
    omega
  | succ fuel ih =>
    unfold failTaskAndAncestors
    by_cases hknown : ix ∈ s.rejected
    · rw [if_pos hknown]
      exact { FailsTo.refl h with
        rejects := fun x hx => List.mem_singleton.mp hx ▸ hknown
        blames := fun i hi => .inl hi }
    rw [if_neg hknown]
    dsimp only
    let t : JobState := { s with
      schedule := s.schedule.cancel ix
      rejected := ix :: s.rejected }
    have hdependents : ∀ i, i ∈ t.schedule.dependents ix ↔ Requires order i ix := by
      intro i
      rw [mem_dependents (show Tracks order s.completed t.schedule from h.tracks)]
      exact and_iff_left hout
    have ht : Failing qty order t := by
      constructor
      case tracks => exact h.tracks
      case closed => exact h.closed
      case nodup => exact List.nodup_cons.mpr ⟨hknown, h.nodup⟩
      case within => exact List.forall_mem_cons.mpr ⟨hix, h.within⟩
    have hfold : FailsTo qty order t (t.schedule.dependents ix)
        ((t.schedule.dependents ix).foldl (failTaskAndAncestors fuel) t) := by
      apply foldl_failsTo _ ht
      · -- What is completed requires only what is completed.
        exact fun x hx hdone => hout (h.closed x hdone ix ((hdependents x).mp hx))
      · show qty < fuel + (ix :: s.rejected).length
        rw [List.length_cons]
        omega
      · exact fun u x hu hx hnot hlt => ih hu (hwithin x ix ((hdependents x).mp hx)) hnot hlt
    have hgrows : List.IsSuffix (ix :: s.rejected) _ := hfold.grows
    constructor
    case failing => exact hfold.failing
    case completed => exact hfold.completed
    case grows => exact (List.suffix_cons ix s.rejected).trans hgrows
    case rejects =>
      intro x hx
      rw [List.mem_singleton.mp hx]
      exact hgrows.mem List.mem_cons_self
    case blames =>
      intro i hi
      rcases hfold.blames i hi with hold | ⟨x, hx, hpath⟩
      · rcases List.mem_cons.mp hold with rfl | hold
        · exact .inr ⟨i, List.mem_singleton_self i, .refl⟩
        · exact .inl hold
      · exact .inr ⟨ix, List.mem_singleton_self ix, hpath.tail ((hdependents x).mp hx)⟩
    case spreads =>
      intro k hk hnot i hi
      by_cases hkx : k = ix
      · subst hkx
        exact hfold.rejects i ((hdependents i).mpr hi)
      · apply hfold.spreads k hk _ i hi
        exact fun hmem => (List.mem_cons.mp hmem).elim hkx hnot
    case cancels =>
      intro i
      rw [hfold.cancels]
      show i ∈ s.schedule.todo.filter (fun task => task ≠ ix) ∧ (_ → i ∈ ix :: s.rejected) ↔ _
      have hself : ix ∈ (List.foldl (failTaskAndAncestors fuel) t
          (t.schedule.dependents ix)).rejected := hgrows.mem List.mem_cons_self
      rw [List.mem_filter, decide_eq_true_eq, List.mem_cons]
      by_cases hix : i = ix
      · subst hix
        tauto
      · tauto
    case shrinks => exact hfold.shrinks.trans List.filter_sublist

theorem failTaskAndAncestors_running (fuel : Nat) (s : JobState) (ix : Nat)
    (running : List Nat) : failTaskAndAncestors fuel { s with running } ix =
      { failTaskAndAncestors fuel s ix with running } := by
  induction fuel generalizing s ix with
  | zero => rfl
  | succ fuel ih =>
    have hfold : ∀ (candidates : List Nat) (s : JobState),
        candidates.foldl (failTaskAndAncestors fuel) { s with running } =
          { candidates.foldl (failTaskAndAncestors fuel) s with running } := by
      intro candidates
      induction candidates with
      | nil => exact fun s => rfl
      | cons candidate candidates ihc =>
        intro s
        rw [List.foldl_cons, List.foldl_cons, ih, ihc]
    unfold failTaskAndAncestors
    dsimp only
    split
    · rfl
    · exact hfold _ { s with
        schedule := s.schedule.cancel ix
        rejected := ix :: s.rejected }

end Failures

section Loop

variable {qty : Nat} {order : Dependencies} {runnable : List Nat} {s s' : JobLoop}

/-- How the tasks of a job stand to its log, where those given have been taken off the
schedule to be started. -/
structure LoopKept (qty : Nat) (order : Dependencies) (runnable : List Nat) (s : JobLoop) :
    Prop where
  kept : JobKept qty order s.job
  within : ∀ i j, Requires order i j → i < qty
  rejectedOnce : s.job.rejected.Nodup
  rejectedWithin : ∀ i ∈ s.job.rejected, i < qty
  todoOnce : s.job.schedule.todo.Nodup
  ready : ∀ i ∈ runnable, i < qty ∧ i ∉ s.job.schedule.todo ∧
    ∀ j, Requires order i j → j ∈ s.job.completed
  apart : runnable.Nodup
  fresh : ∀ i, i ∈ runnable ∨ i ∈ s.job.schedule.todo →
    i ∉ startedTasks s.log ∧ i ∉ s.job.rejected
  all : ∀ i < qty, i ∈ runnable ∨ i ∈ s.job.schedule.todo ∨ i ∈ startedTasks s.log ∨
    i ∈ s.job.rejected
  begun : ∀ i ∈ s.job.running, i ∈ startedTasks s.log ∧ i ∉ s.job.completed
  gone : ∀ i ∈ startedTasks s.log,
    i ∈ s.job.running ∨ i ∈ s.job.completed ∨ Failed s.log i
  success : ∀ i ∈ s.job.completed,
    i ∈ startedTasks s.log ∧ .fulfilled i ∈ s.log ∧ i ∉ s.job.rejected
  failedStarted : ∀ i, Failed s.log i → i ∈ startedTasks s.log
  blame : ∀ i, i ∈ s.job.rejected ↔ Doomed (Requires order) s.log i
  settledStarted : ∀ i ∈ s.settled, i ∈ startedTasks s.log
  settledFulfilled : ∀ i ∈ s.settled, ¬ Failed s.log i → .fulfilled i ∈ s.log
  settles : ∀ i, .fulfilled i ∈ s.log ∨ .rejected i ∈ s.log → i ∈ s.settled
  required : ∀ i ∈ startedTasks s.log, ∀ j, Requires order i j → j ∈ s.job.completed
  once : (startedTasks s.log).Nodup
  inOrder : InOrder (Requires order) s.log

theorem JobKept.completed_of_reaches {job : JobState} (h : JobKept qty order job) {i k : Nat}
    (hi : i ∈ job.completed) (hpath : Relation.ReflTransGen (Requires order) i k) :
    k ∈ job.completed := by
  induction hpath with
  | refl => exact hi
  | tail _ hstep ih =>
    rw [← List.mem_toFinset] at ih ⊢
    exact h.completable.closed ih hstep

theorem JobKept.eq_of_reaches {job : JobState} (h : JobKept qty order job) {i k : Nat}
    (hready : ∀ j, Requires order i j → j ∈ job.completed) (hout : k ∉ job.completed)
    (hpath : Relation.ReflTransGen (Requires order) i k) : i = k := by
  rcases Relation.ReflTransGen.cases_head hpath with rfl | ⟨j, hj, hrest⟩
  · rfl
  · exact absurd (h.completed_of_reaches (hready j hj) hrest) hout

theorem LoopKept.failing (h : LoopKept qty order runnable s) : Failing qty order s.job where
  tracks := h.kept.tracks
  closed _ hi _ hij := h.kept.completed_of_reaches hi (.single hij)
  nodup := h.rejectedOnce
  within := h.rejectedWithin

theorem LoopKept.place {ix : Nat} (h : LoopKept qty order (ix :: runnable) s) :
    LoopKept qty order runnable { s with
      job := { s.job with running := s.job.running ++ [ix] }
      log := s.log ++ [.started ix (s.job.running ++ [ix])] } := by
  obtain ⟨hlt, htodo, hrequires⟩ := h.ready ix List.mem_cons_self
  obtain ⟨hnew, hkeep⟩ := h.fresh ix (.inl List.mem_cons_self)
  have hstarted : ∀ i, i ∈ startedTasks (s.log ++ [.started ix (s.job.running ++ [ix])]) ↔
      i ∈ startedTasks s.log ∨ i = ix := by
    intro i
    rw [startedTasks_append, startedTasks_started, List.mem_append, List.mem_singleton]
  have hfailed : ∀ i, Failed (s.log ++ [.started ix (s.job.running ++ [ix])]) i ↔
      Failed s.log i := by
    intro i
    simp [Failed]
  have hnotDone : ix ∉ s.job.completed := fun hdone => hnew (h.success ix hdone).1
  constructor
  case kept =>
    exact { h.kept with
      started := by
        intro i hi
        rcases List.mem_append.mp hi with hi | hi
        · exact h.kept.started i hi
        · rw [List.mem_singleton.mp hi]
          exact ⟨hlt, hrequires⟩ }
  case within => exact h.within
  case rejectedOnce => exact h.rejectedOnce
  case rejectedWithin => exact h.rejectedWithin
  case todoOnce => exact h.todoOnce
  case ready => exact fun i hi => h.ready i (List.mem_cons_of_mem _ hi)
  case apart => exact (List.nodup_cons.mp h.apart).2
  case fresh =>
    intro i hi
    have hne : i ≠ ix := by
      rintro rfl
      exact hi.elim (List.nodup_cons.mp h.apart).1 htodo
    obtain ⟨hnot, hok⟩ := h.fresh i (hi.imp (List.mem_cons_of_mem _) id)
    refine ⟨fun hmem => ?_, hok⟩
    exact ((hstarted i).mp hmem).elim hnot hne
  case all =>
    intro i hi
    rw [hstarted]
    rcases h.all i hi with hrun | hrest
    · rcases List.mem_cons.mp hrun with rfl | hrun
      · exact .inr (.inr (.inl (.inr rfl)))
      · exact .inl hrun
    · exact .inr (hrest.imp_right (Or.imp_left .inl))
  case begun =>
    intro i hi
    rw [hstarted]
    rcases List.mem_append.mp hi with hi | hi
    · exact (h.begun i hi).imp_left .inl
    · rw [List.mem_singleton.mp hi]
      exact ⟨.inr rfl, hnotDone⟩
  case gone =>
    intro i hi
    rw [hfailed]
    rcases (hstarted i).mp hi with hi | rfl
    · exact (h.gone i hi).imp_left (List.mem_append_left _)
    · exact .inl (List.mem_append_right _ (List.mem_singleton_self i))
  case success =>
    intro i hi
    obtain ⟨hstart, hfulfilled, hok⟩ := h.success i hi
    exact ⟨(hstarted i).mpr (.inl hstart), List.mem_append_left _ hfulfilled, hok⟩
  case failedStarted =>
    intro i hi
    exact (hstarted i).mpr (.inl (h.failedStarted i ((hfailed i).mp hi)))
  case blame =>
    intro i
    simp only [Doomed, hfailed]
    exact h.blame i
  case settledStarted => exact fun i hi => (hstarted i).mpr (.inl (h.settledStarted i hi))
  case settledFulfilled =>
    intro i hi hnot
    rw [hfailed] at hnot
    exact List.mem_append_left _ (h.settledFulfilled i hi hnot)
  case settles =>
    intro i hi
    apply h.settles i
    simpa using hi
  case required =>
    intro i hi
    rcases (hstarted i).mp hi with hi | rfl
    · exact h.required i hi
    · exact hrequires
  case once =>
    rw [startedTasks_append, startedTasks_started, List.nodup_append]
    refine ⟨h.once, List.nodup_singleton ix, ?_⟩
    intro i hi j hj
    rw [List.mem_singleton.mp hj]
    rintro rfl
    exact hnew hi
  case inOrder =>
    apply h.inOrder.append
    intro i running heq j hj
    cases heq
    exact (h.success j (hrequires j hj)).2.1

theorem LoopKept.fails {ix : Nat} (h : LoopKept qty order runnable s)
    (hix : ix ∈ s.job.running) {e : JobEvent} {settled : List Nat}
    (he : e = .threw ix ∧ settled = s.settled ∨ e = .rejected ix ∧ settled = ix :: s.settled) :
    LoopKept qty order runnable { s with
      job := failTaskAndAncestors (qty + 1) s.job ix
      settled
      log := s.log ++ [e] } := by
  obtain ⟨hlt, hrequires⟩ := h.kept.started ix hix
  obtain ⟨hbegun, hnotDone⟩ := h.begun ix hix
  have hfails : FailsTo qty order s.job [ix] (failTaskAndAncestors (qty + 1) s.job ix) :=
    failTaskAndAncestors_failsTo h.within h.failing hlt hnotDone (by omega)
  obtain ⟨hrunning, hcompleted, hdependencies, htodo⟩ :=
    failTaskAndAncestors_frame (qty + 1) s.job ix
  have hstarted : startedTasks (s.log ++ [e]) = startedTasks s.log := by
    rw [startedTasks_append]
    rcases he with ⟨rfl, -⟩ | ⟨rfl, -⟩ <;> exact List.append_nil _
  have hfailed : ∀ i, Failed (s.log ++ [e]) i ↔ Failed s.log i ∨ i = ix := by
    intro i
    rw [failed_append]
    rcases he with ⟨rfl, -⟩ | ⟨rfl, -⟩ <;> simp [Failed]
  have hsettled : ∀ i, i ∈ settled → i = ix ∨ i ∈ s.settled := by
    intro i hi
    rcases he with ⟨-, rfl⟩ | ⟨-, rfl⟩
    · exact .inr hi
    · exact List.mem_cons.mp hi
  -- A task all of whose requirements are completed is not rejected with this one.
  have hsafe : ∀ i, i ≠ ix → (∀ j, Requires order i j → j ∈ s.job.completed) →
      i ∉ s.job.rejected → i ∉ (failTaskAndAncestors (qty + 1) s.job ix).rejected := by
    intro i hne hready hok hmem
    rcases hfails.blames i hmem with hold | ⟨x, hx, hpath⟩
    · exact hok hold
    · rw [List.mem_singleton.mp hx] at hpath
      exact hne (h.kept.eq_of_reaches hready hnotDone hpath)
  constructor
  case kept => exact h.kept.rejects (qty + 1) ix
  case within => exact h.within
  case rejectedOnce => exact hfails.failing.nodup
  case rejectedWithin => exact hfails.failing.within
  case todoOnce => exact h.todoOnce.sublist hfails.shrinks
  case ready =>
    intro i hi
    obtain ⟨hi', hout, hready⟩ := h.ready i hi
    refine ⟨hi', fun hmem => hout (htodo i hmem), ?_⟩
    dsimp only
    rwa [hcompleted]
  case apart => exact h.apart
  case fresh =>
    intro i hi
    dsimp only at hi ⊢
    rw [hstarted]
    rcases hi with hi | hi
    · obtain ⟨hnew, hok⟩ := h.fresh i (.inl hi)
      refine ⟨hnew, hsafe i ?_ (h.ready i hi).2.2 hok⟩
      rintro rfl
      exact hnew hbegun
    · obtain ⟨hmem, himp⟩ := (hfails.cancels i).mp hi
      obtain ⟨hnew, hok⟩ := h.fresh i (.inr hmem)
      exact ⟨hnew, fun hrej => hok (himp hrej)⟩
  case all =>
    intro i hi
    dsimp only
    rw [hstarted]
    rcases h.all i hi with hrun | hwait | hbegun | hrej
    · exact .inl hrun
    · by_cases hmem : i ∈ (failTaskAndAncestors (qty + 1) s.job ix).rejected
      · exact .inr (.inr (.inr hmem))
      · exact .inr (.inl ((hfails.cancels i).mpr ⟨hwait, fun hrej => absurd hrej hmem⟩))
    · exact .inr (.inr (.inl hbegun))
    · exact .inr (.inr (.inr (hfails.grows.mem hrej)))
  case begun =>
    intro i hi
    dsimp only at hi ⊢
    rw [hstarted, hcompleted]
    rw [hrunning] at hi
    exact h.begun i hi
  case gone =>
    intro i hi
    dsimp only at hi ⊢
    rw [hstarted] at hi
    rw [hrunning, hcompleted, hfailed]
    exact (h.gone i hi).imp_right (Or.imp_right .inl)
  case success =>
    intro i hi
    dsimp only at hi ⊢
    rw [hcompleted] at hi
    obtain ⟨hstart, hfulfilled, hok⟩ := h.success i hi
    rw [hstarted]
    refine ⟨hstart, List.mem_append_left _ hfulfilled, hsafe i ?_ ?_ hok⟩
    · rintro rfl
      exact hnotDone hi
    · exact h.failing.closed i hi
  case failedStarted =>
    intro i hi
    dsimp only at hi ⊢
    rw [hstarted]
    rcases (hfailed i).mp hi with hi | rfl
    · exact h.failedStarted i hi
    · exact hbegun
  case blame =>
    intro i
    constructor
    · intro hi
      rcases hfails.blames i hi with hold | ⟨x, hx, hpath⟩
      · obtain ⟨j, hj, hpath⟩ := (h.blame i).mp hold
        exact ⟨j, (hfailed j).mpr (.inl hj), hpath⟩
      · rw [List.mem_singleton.mp hx] at hpath
        exact ⟨ix, (hfailed ix).mpr (.inr rfl), hpath⟩
    · rintro ⟨j, hj, hpath⟩
      rcases (hfailed j).mp hj with hj | rfl
      · exact hfails.grows.mem ((h.blame i).mpr ⟨j, hj, hpath⟩)
      · induction hpath using Relation.ReflTransGen.head_induction_on with
        | refl => exact hfails.rejects j (List.mem_singleton_self j)
        | @head a c hstep _ ih =>
          by_cases hc : c ∈ s.job.rejected
          · obtain ⟨k, hk, hck⟩ := (h.blame c).mp hc
            exact hfails.grows.mem ((h.blame a).mpr ⟨k, hk, .head hstep hck⟩)
          · exact hfails.spreads c ih hc a hstep
  case settledStarted =>
    intro i hi
    dsimp only at hi ⊢
    rw [hstarted]
    rcases hsettled i hi with rfl | hi
    · exact hbegun
    · exact h.settledStarted i hi
  case settledFulfilled =>
    intro i hi hnot
    rw [hfailed, not_or] at hnot
    rcases hsettled i hi with rfl | hi
    · exact absurd rfl hnot.2
    · exact List.mem_append_left _ (h.settledFulfilled i hi hnot.1)
  case settles =>
    intro i hi
    rcases he with ⟨rfl, rfl⟩ | ⟨rfl, rfl⟩
    · exact h.settles i (by simpa using hi)
    · by_cases heq : i = ix
      · exact heq ▸ List.mem_cons_self
      · exact List.mem_cons_of_mem _ (h.settles i (by simpa [heq] using hi))
  case required =>
    dsimp only
    rw [hstarted, hcompleted]
    exact h.required
  case once =>
    dsimp only
    rw [hstarted]
    exact h.once
  case inOrder =>
    apply h.inOrder.append
    intro i running heq
    rcases he with ⟨rfl, -⟩ | ⟨rfl, -⟩ <;> cases heq

theorem LoopKept.startTask {ix : Nat} (h : LoopKept qty order (ix :: runnable) s)
    (throws : List Nat) : LoopKept qty order runnable (startTask qty throws s ix) := by
  unfold Portfolio.startTask
  dsimp only
  split
  · rw [← failTaskAndAncestors_running]
    apply h.place.fails _ (.inl ⟨rfl, rfl⟩)
    exact List.mem_append_right _ (List.mem_singleton_self ix)
  · exact h.place

theorem LoopKept.foldl_startTask (h : LoopKept qty order runnable s) (throws : List Nat) :
    LoopKept qty order [] (runnable.foldl (Portfolio.startTask qty throws) s) := by
  induction runnable generalizing s with
  | nil => exact h
  | cons ix runnable ih =>
    rw [List.foldl_cons]
    exact ih (h.startTask throws)

/-- A job whose loop awaits a task or has ended. -/
structure LoopSound (qty : Nat) (order : Dependencies) (s : JobLoop) : Prop where
  kept : LoopKept qty order [] s
  settledOnce : s.settled.Nodup
  noLoop : s.status ≠ .stuck
  awaits : s.status = .awaiting → s.job.running ≠ []
  ended : s.status = .ended → s.job.running = [] ∧ s.job.schedule.todo = []

/-- Starting tasks adds them to those that run and nothing else of this. -/
structure Starts (s : JobLoop) (n : Nat) (s' : JobLoop) : Prop where
  settled : s'.settled = s.settled
  status : s'.status = s.status
  running : s'.job.running.length = s.job.running.length + n
  started : (startedTasks s'.log).length = (startedTasks s.log).length + n

theorem startTask_starts (qty : Nat) (throws : List Nat) (s : JobLoop) (ix : Nat) :
    Starts s 1 (startTask qty throws s ix) := by
  unfold startTask
  dsimp only
  split
  · constructor <;> simp [startedTasks]
  · constructor <;> simp [startedTasks]

theorem foldl_startTask_starts (qty : Nat) (throws : List Nat) (s : JobLoop)
    (runnable : List Nat) :
    Starts s runnable.length (runnable.foldl (startTask qty throws) s) := by
  induction runnable generalizing s with
  | nil => exact ⟨rfl, rfl, rfl, rfl⟩
  | cons ix runnable ih =>
    rw [List.foldl_cons, List.length_cons]
    have hfirst := startTask_starts qty throws s ix
    have hrest := ih (startTask qty throws s ix)
    constructor
    case settled => exact hrest.settled.trans hfirst.settled
    case status => exact hrest.status.trans hfirst.status
    case running =>
      rw [hrest.running, hfirst.running]
      omega
    case started =>
      rw [hrest.started, hfirst.started]
      omega

theorem LoopKept.take (h : LoopKept qty order [] s) :
    LoopKept qty order s.job.schedule.ready.1
      { s with job := { s.job with schedule := s.job.schedule.ready.2 } } := by
  obtain ⟨hready, hleft, htracks⟩ := h.kept.tracks.ready
  exact { h with
    kept := { h.kept with
      tracks := htracks
      within := fun i hi => h.kept.within i ((hleft i).mp hi).1 }
    ready := by
      intro i hi
      obtain ⟨hmem, hrequires⟩ := (hready i).mp hi
      refine ⟨h.kept.within i hmem, ?_, hrequires⟩
      intro hstay
      obtain ⟨-, j, hj, hout⟩ := (hleft i).mp hstay
      exact hout (hrequires j hj)
    todoOnce := h.todoOnce.sublist List.filter_sublist
    apart := h.todoOnce.sublist List.filter_sublist
    fresh := by
      intro i hi
      apply h.fresh i (.inr _)
      exact hi.elim (fun hi => ((hready i).mp hi).1) fun hi => ((hleft i).mp hi).1
    all := by
      intro i hi
      rcases h.all i hi with hnone | hwait | hrest
      · cases hnone
      · by_cases hblocked : ∃ j, Requires order i j ∧ j ∉ s.job.completed
        · exact .inr (.inl ((hleft i).mpr ⟨hwait, hblocked⟩))
        · have hrequires : ∀ j, Requires order i j → j ∈ s.job.completed := by
            simpa only [not_exists, not_and, not_not] using hblocked
          exact .inl ((hready i).mpr ⟨hwait, hrequires⟩)
      · exact .inr (.inr hrest) }

theorem LoopKept.ready_ne_nil (h : LoopKept qty order [] s)
    (hall : Completable (Requires order) (Finset.range qty)) (hidle : s.job.running = [])
    (hmore : s.job.schedule.todo ≠ []) : s.job.schedule.ready.1 ≠ [] := by
  obtain ⟨i, hi⟩ := List.exists_mem_of_ne_nil _ hmore
  let T : Finset Nat := (s.job.completed ++ s.job.rejected).toFinset
  have hT : ∀ k, k ∈ T ↔ k ∈ s.job.completed ∨ k ∈ s.job.rejected := by
    intro k
    rw [List.mem_toFinset, List.mem_append]
  have hout : ¬ Finset.range qty ⊆ T := by
    intro hsub
    obtain ⟨hnew, hok⟩ := h.fresh i (.inr hi)
    rcases (hT i).mp (hsub (Finset.mem_range.mpr (h.kept.within i hi))) with hdone | hrej
    · exact hnew (h.success i hdone).1
    · exact hok hrej
  obtain ⟨v, hv, hvT, hrequires⟩ := hall.exists_ready hout
  rw [hT, not_or] at hvT
  have hwait : v ∈ s.job.schedule.todo := by
    rcases h.all v (Finset.mem_range.mp hv) with hnone | hwait | hbegun | hrej
    · cases hnone
    · exact hwait
    · rcases h.gone v hbegun with hrun | hdone | hfailed
      · rw [hidle] at hrun
        cases hrun
      · exact absurd hdone hvT.1
      · exact absurd ((h.blame v).mpr ⟨v, hfailed, .refl⟩) hvT.2
    · exact absurd hrej hvT.2
  apply List.ne_nil_of_mem
  apply (h.kept.tracks.ready.1 v).mpr
  refine ⟨hwait, fun u hu => ?_⟩
  rcases (hT u).mp (hrequires u hu) with hdone | hrej
  · exact hdone
  · -- What requires a rejected task is rejected.
    obtain ⟨j, hj, hpath⟩ := (h.blame u).mp hrej
    exact absurd ((h.blame v).mpr ⟨j, hj, .head hu hpath⟩) hvT.2

theorem LoopKept.startRunnable (h : LoopKept qty order [] s)
    (hall : Completable (Requires order) (Finset.range qty)) (honce : s.settled.Nodup)
    (hstatus : s.status = .awaiting) (throws : List Nat) :
    LoopSound qty order (startRunnable qty throws s) ∧
      (Portfolio.startRunnable qty throws s).settled = s.settled ∧
      (startedTasks (Portfolio.startRunnable qty throws s).log).length + s.job.running.length =
        (startedTasks s.log).length +
          (Portfolio.startRunnable qty throws s).job.running.length := by
  unfold Portfolio.startRunnable
  by_cases hmore : s.job.schedule.pending = true ∨ s.job.running ≠ []
  · rw [if_pos hmore]
    dsimp only
    let t : JobLoop := { s with job := { s.job with schedule := s.job.schedule.ready.2 } }
    have hne : ¬ (s.job.schedule.ready.1 = [] ∧ s.job.running = []) := by
      rintro ⟨hnone, hidle⟩
      apply h.ready_ne_nil hall hidle _ hnone
      rcases hmore with hpending | hrunning
      · simpa [Schedule.pending] using hpending
      · exact absurd hidle hrunning
    rw [if_neg hne]
    have hstarts := foldl_startTask_starts qty throws t s.job.schedule.ready.1
    have hawaits : (s.job.schedule.ready.1.foldl (Portfolio.startTask qty throws) t).status = .awaiting :=
      hstarts.status.trans hstatus
    refine ⟨?_, hstarts.settled, ?_⟩
    · constructor
      case kept => exact h.take.foldl_startTask throws
      case settledOnce =>
        rw [hstarts.settled]
        exact honce
      case noLoop =>
        rw [hawaits]
        exact nofun
      case awaits =>
        intro _ hnil
        have hrunning := hstarts.running
        rw [hnil, List.length_nil] at hrunning
        have hidle : t.job.running = [] := List.length_eq_zero_iff.mp (by omega)
        exact hne ⟨List.length_eq_zero_iff.mp (by omega), hidle⟩
      case ended =>
        rw [hawaits]
        exact nofun
    · have hrunning : _ = s.job.running.length + _ := hstarts.running
      have hstarted : _ = (startedTasks s.log).length + _ := hstarts.started
      rw [hrunning, hstarted]
      omega
  · rw [if_neg hmore]
    rw [not_or, not_not] at hmore
    obtain ⟨hpending, hidle⟩ := hmore
    refine ⟨?_, rfl, rfl⟩
    constructor
    case kept => exact { h with }
    case settledOnce => exact honce
    case noLoop => exact nofun
    case awaits => exact nofun
    case ended =>
      intro _
      refine ⟨hidle, ?_⟩
      simpa [Schedule.pending] using hpending

theorem LoopKept.fulfils {ix : Nat} (h : LoopKept qty order [] s) (hix : ix ∈ s.job.running) :
    LoopKept qty order [] { s with
      settled := ix :: s.settled
      log := if .threw ix ∈ s.log then s.log else s.log ++ [.fulfilled ix] } := by
  split
  case isTrue hthrew =>
    exact { h with
      settledStarted := List.forall_mem_cons.mpr ⟨(h.begun ix hix).1, h.settledStarted⟩
      settledFulfilled := by
        intro i hi hnot
        rcases List.mem_cons.mp hi with rfl | hi
        · exact absurd (.inl hthrew) hnot
        · exact h.settledFulfilled i hi hnot
      settles := fun i hi => List.mem_cons_of_mem _ (h.settles i hi) }
  case isFalse =>
    have hstarted : startedTasks (s.log ++ [.fulfilled ix]) = startedTasks s.log := by
      rw [startedTasks_append]
      exact List.append_nil _
    have hfailed : ∀ i, Failed (s.log ++ [.fulfilled ix]) i ↔ Failed s.log i := by
      intro i
      simp [Failed]
    exact { h with
      fresh := by
        dsimp only
        rw [hstarted]
        exact h.fresh
      all := by
        dsimp only
        rw [hstarted]
        exact h.all
      begun := by
        dsimp only
        rw [hstarted]
        exact h.begun
      gone := by
        dsimp only
        rw [hstarted]
        intro i hi
        rw [hfailed]
        exact h.gone i hi
      success := by
        dsimp only
        rw [hstarted]
        intro i hi
        obtain ⟨hstart, hfulfilled, hok⟩ := h.success i hi
        exact ⟨hstart, List.mem_append_left _ hfulfilled, hok⟩
      failedStarted := by
        dsimp only
        rw [hstarted]
        exact fun i hi => h.failedStarted i ((hfailed i).mp hi)
      blame := by
        intro i
        simp only [Doomed, hfailed]
        exact h.blame i
      settledStarted := by
        dsimp only
        rw [hstarted]
        exact List.forall_mem_cons.mpr ⟨(h.begun ix hix).1, h.settledStarted⟩
      settledFulfilled := by
        intro i hi hnot
        rw [hfailed] at hnot
        rcases List.mem_cons.mp hi with rfl | hi
        · exact List.mem_append_right _ (List.mem_singleton_self _)
        · exact List.mem_append_left _ (h.settledFulfilled i hi hnot)
      settles := by
        intro i hi
        by_cases heq : i = ix
        · exact heq ▸ List.mem_cons_self
        · exact List.mem_cons_of_mem _ (h.settles i (by simpa [heq] using hi))
      required := by
        dsimp only
        rw [hstarted]
        exact h.required
      once := by
        dsimp only
        rw [hstarted]
        exact h.once
      inOrder := h.inOrder.append nofun }

theorem finishTask_running (job : JobState) (ix : Nat) :
    (finishTask job ix).running = job.running.filter fun task => task ≠ ix := by
  unfold finishTask
  dsimp only
  split <;> rfl

theorem LoopKept.removes {ix : Nat} (h : LoopKept qty order [] s) (hix : ix ∈ s.job.running)
    (hsettled : ix ∈ s.settled) :
    LoopKept qty order [] { s with job := finishTask s.job ix } := by
  have hsub : ∀ i ∈ s.job.running.filter fun task => task ≠ ix, i ∈ s.job.running ∧ i ≠ ix := by
    intro i hi
    obtain ⟨hmem, hne⟩ := List.mem_filter.mp hi
    exact ⟨hmem, of_decide_eq_true hne⟩
  have hstay : ∀ i ∈ s.job.running, i ≠ ix →
      i ∈ s.job.running.filter fun task => task ≠ ix :=
    fun i hi hne => List.mem_filter.mpr ⟨hi, decide_eq_true hne⟩
  unfold finishTask
  dsimp only
  split
  case isTrue hrej =>
    -- It was ready, so that it is rejected for a failure of its own.
    have hown : Failed s.log ix := by
      obtain ⟨j, hj, hpath⟩ := (h.blame ix).mp hrej
      have hnotDone : j ∉ s.job.completed :=
        fun hdone => (h.success j hdone).2.2 ((h.blame j).mpr ⟨j, hj, .refl⟩)
      rw [h.kept.eq_of_reaches (h.kept.started ix hix).2 hnotDone hpath]
      exact hj
    exact { h with
      kept := { h.kept with started := fun i hi => h.kept.started i (hsub i hi).1 }
      begun := fun i hi => h.begun i (hsub i hi).1
      gone := by
        intro i hi
        rcases h.gone i hi with hrun | hrest
        · by_cases heq : i = ix
          · exact .inr (.inr (heq ▸ hown))
          · exact .inl (hstay i hrun heq)
        · exact .inr hrest }
  case isFalse hok =>
    have hnotFailed : ¬ Failed s.log ix := fun hf => hok ((h.blame ix).mpr ⟨ix, hf, .refl⟩)
    exact { h with
      kept := h.kept.complete hix fun i hi => (hsub i hi).1
      ready := nofun
      begun := by
        intro i hi
        obtain ⟨hmem, hne⟩ := hsub i hi
        obtain ⟨hbegun, hnotDone⟩ := h.begun i hmem
        exact ⟨hbegun, fun hdone => (List.mem_cons.mp hdone).elim hne hnotDone⟩
      gone := by
        intro i hi
        rcases h.gone i hi with hrun | hdone | hf
        · by_cases heq : i = ix
          · exact .inr (.inl (heq ▸ List.mem_cons_self))
          · exact .inl (hstay i hrun heq)
        · exact .inr (.inl (List.mem_cons_of_mem _ hdone))
        · exact .inr (.inr hf)
      success := by
        intro i hi
        rcases List.mem_cons.mp hi with rfl | hi
        · exact ⟨(h.begun i hix).1, h.settledFulfilled i hsettled hnotFailed, hok⟩
        · exact h.success i hi
      required := fun i hi j hj => List.mem_cons_of_mem _ (h.required i hi j hj) }

/-- What one step of the loop does: it stays sound and a settlement is one more, or a
running task is one less. -/
theorem LoopSound.step (h : LoopSound qty order s)
    (hall : Completable (Requires order) (Finset.range qty)) {a : LoopAction}
    (hstep : jobLoopStep qty s a = some s') :
    LoopSound qty order s' ∧
      s.settled.length + (startedTasks s.log).length + s'.job.running.length + 1 ≤
        s'.settled.length + (startedTasks s'.log).length + s.job.running.length := by
  cases a with
  | fulfils ix =>
    obtain ⟨⟨hix, hnew⟩, hs'⟩ := Option.ite_none_right_eq_some.mp hstep
    cases hs'
    constructor
    · constructor
      case kept => exact h.kept.fulfils hix
      case settledOnce => exact List.nodup_cons.mpr ⟨hnew, h.settledOnce⟩
      case noLoop => exact h.noLoop
      case awaits => exact h.awaits
      case ended => exact h.ended
    · dsimp only
      rw [List.length_cons]
      split
      · omega
      · rw [startedTasks_append, startedTasks_fulfilled, List.append_nil]
        omega
  | rejects ix =>
    obtain ⟨⟨hix, hnew, -⟩, hs'⟩ := Option.ite_none_right_eq_some.mp hstep
    cases hs'
    obtain ⟨hrunning, -, -, htodo⟩ := failTaskAndAncestors_frame (qty + 1) s.job ix
    constructor
    · constructor
      case kept => exact h.kept.fails hix (.inr ⟨rfl, rfl⟩)
      case settledOnce => exact List.nodup_cons.mpr ⟨hnew, h.settledOnce⟩
      case noLoop => exact h.noLoop
      case awaits =>
        intro hstatus
        dsimp only
        rw [hrunning]
        exact h.awaits hstatus
      case ended =>
        intro hstatus
        rw [(h.ended hstatus).1] at hix
        cases hix
    · dsimp only
      rw [List.length_cons, hrunning, startedTasks_append, startedTasks_rejected,
        List.append_nil]
      omega
  | wins ix throws =>
    obtain ⟨⟨hstatus, hix, hsettled⟩, hs'⟩ := Option.ite_none_right_eq_some.mp hstep
    have hremoved := h.kept.removes hix hsettled
    obtain ⟨hsound, hsame, hcount⟩ :=
      hremoved.startRunnable hall h.settledOnce hstatus throws
    have hless : (s.job.running.filter fun task => task ≠ ix).length < s.job.running.length := by
      apply List.length_filter_lt_length_iff_exists.mpr
      exact ⟨ix, hix, by simp⟩
    cases hs'
    refine ⟨hsound, ?_⟩
    rw [hsame]
    dsimp only at hcount ⊢
    rw [finishTask_running] at hcount
    omega

theorem LoopKept.started_within (h : LoopKept qty order runnable s) :
    ∀ i ∈ startedTasks s.log, i < qty := by
  intro i hi
  rcases h.gone i hi with hrun | hdone | hfailed
  · exact (h.kept.started i hrun).1
  · exact h.kept.finished i hdone
  · exact h.rejectedWithin i ((h.blame i).mpr ⟨i, hfailed, .refl⟩)

end Loop

section Outcomes

variable {job : Job} {order : Dependencies} {s t : JobLoop}

/-- The promise of a call that threw is one of the loop's own, already resolved. -/
def LoopAction.IsOwn (log : List JobEvent) : LoopAction → Prop
  | .fulfils ix => .threw ix ∈ log
  | .rejects _ => False
  | .wins _ _ => True

/-- What a run of a job shows, and what it reports once it has ended. -/
structure RespectsOrder (job : Job) (s : JobLoop) : Prop where
  once : (startedTasks s.log).Nodup
  inOrder : InOrder (Lists job.order) s.log
  skips : ∀ i j, Failed s.log j → Relation.TransGen (Lists job.order) i j →
    i ∉ startedTasks s.log
  noLoop : s.status ≠ .stuck
  /-- While all that have been started have ended, the loop goes on by itself. -/
  ends : (∀ i ∈ startedTasks s.log, .fulfilled i ∈ s.log ∨ Failed s.log i) →
    s.status = .ended ∨ ∃ a, a.IsOwn s.log ∧ (jobLoopStep job.taskQty s a).isSome
  reports : s.status = .ended → ∀ i < job.taskQty,
    (s.results job.taskQty)[i]? = some .rejected ∧ Doomed (Lists job.order) s.log i ∨
      (s.results job.taskQty)[i]? = some .fulfilled ∧ ¬ Doomed (Lists job.order) s.log i ∧
        .fulfilled i ∈ s.log

theorem loopSound_init (hmake : makeDependencies job.taskQty job.order = .ok order)
    (h : (jobLoop job).init s) :
    LoopSound job.taskQty order s ∧ s.settled = [] ∧
      (startedTasks s.log).length = s.job.running.length := by
  obtain ⟨hnormalized, hall⟩ := makeDependencies_ok hmake
  obtain ⟨schedule, throws, hschedule, rfl⟩ := h
  unfold makeSchedule at hschedule
  rw [hmake] at hschedule
  cases hschedule
  have hkept : LoopKept job.taskQty order []
      { job := { schedule := { todo := List.range job.taskQty, dependencies := order } } } := by
    constructor
    case kept => exact jobKept_start hmake
    case within => exact fun i j hij => (hnormalized.within i j hij).1
    case rejectedOnce => exact List.nodup_nil
    case rejectedWithin => exact nofun
    case todoOnce => exact List.nodup_range
    case ready => exact nofun
    case apart => exact List.nodup_nil
    case fresh => exact fun i _ => ⟨nofun, nofun⟩
    case all => exact fun i hi => .inr (.inl (List.mem_range.mpr hi))
    case begun => exact nofun
    case gone => exact nofun
    case success => exact nofun
    case failedStarted => exact fun i hi => hi.elim nofun nofun
    case blame => exact fun i => ⟨nofun, fun ⟨j, hj, _⟩ => hj.elim nofun nofun⟩
    case settledStarted => exact nofun
    case settledFulfilled => exact nofun
    case settles => exact fun i hi => hi.elim nofun nofun
    case required => exact nofun
    case once => exact List.nodup_nil
    case inOrder =>
      intro before ix running after heq
      cases before <;> cases heq
  obtain ⟨hsound, hsettled, hcount⟩ := hkept.startRunnable hall List.nodup_nil rfl throws
  refine ⟨hsound, hsettled, ?_⟩
  simpa [startedTasks] using hcount

theorem loopSound_of_reachable (hmake : makeDependencies job.taskQty job.order = .ok order)
    (h : (jobLoop job).Reachable TransitionSystem.anyStep s) :
    LoopSound job.taskQty order s := by
  apply h.invariant
  · exact fun s hs => (loopSound_init hmake hs).1
  · exact fun s a t hs _ hstep => (hs.step (makeDependencies_ok hmake).2 hstep).1

theorem LoopSound.run_length (h : LoopSound job.taskQty order s)
    (hall : Completable (Requires order) (Finset.range job.taskQty)) {as : List LoopAction}
    (hrun : (jobLoop job).runWhile TransitionSystem.anyStep s as = some t) :
    LoopSound job.taskQty order t ∧
      as.length + s.settled.length + (startedTasks s.log).length + t.job.running.length ≤
        t.settled.length + (startedTasks t.log).length + s.job.running.length := by
  induction as generalizing s with
  | nil =>
    cases hrun
    exact ⟨h, by rw [List.length_nil]; omega⟩
  | cons a as ih =>
    obtain ⟨-, hrun⟩ := Option.ite_none_right_eq_some.mp hrun
    obtain ⟨u, hstep, hrest⟩ := Option.bind_eq_some_iff.mp hrun
    obtain ⟨hsound, hstepped⟩ := h.step hall hstep
    obtain ⟨ht, hlength⟩ := ih hsound hrest
    refine ⟨ht, ?_⟩
    rw [List.length_cons]
    omega

theorem LoopSound.respectsOrder (h : LoopSound job.taskQty order s)
    (hlists : Requires order = Lists job.order) : RespectsOrder job s := by
  have hblame := h.kept.blame
  have hinOrder := h.kept.inOrder
  rw [hlists] at hblame hinOrder
  constructor
  case once => exact h.kept.once
  case inOrder => exact hinOrder
  case skips =>
    intro i j hj hpath hbegun
    rw [← hlists] at hpath
    obtain ⟨k, hk, hrest⟩ := Relation.TransGen.head'_iff.mp hpath
    have hdone := h.kept.kept.completed_of_reaches (h.kept.required i hbegun k hk) hrest
    exact (h.kept.success j hdone).2.2 ((hblame j).mpr ⟨j, hj, .refl⟩)
  case noLoop => exact h.noLoop
  case ends =>
    intro hall
    cases hstatus : s.status with
    | ended => exact .inl rfl
    | stuck => exact absurd hstatus h.noLoop
    | awaiting =>
      right
      obtain ⟨ix, hix⟩ := List.exists_mem_of_ne_nil _ (h.awaits hstatus)
      by_cases hsettled : ix ∈ s.settled
      · refine ⟨.wins ix [], trivial, ?_⟩
        rw [jobLoopStep, if_pos ⟨hstatus, hix, hsettled⟩]
        rfl
      · have hthrew : .threw ix ∈ s.log := by
          rcases hall ix (h.kept.begun ix hix).1 with hfulfilled | hthrew | hrejected
          · exact absurd (h.kept.settles ix (.inl hfulfilled)) hsettled
          · exact hthrew
          · exact absurd (h.kept.settles ix (.inr hrejected)) hsettled
        refine ⟨.fulfils ix, hthrew, ?_⟩
        rw [jobLoopStep, if_pos ⟨hix, hsettled⟩]
        rfl
  case reports =>
    intro hstatus i hi
    obtain ⟨hidle, hnone⟩ := h.ended hstatus
    have hget : (s.results job.taskQty)[i]? =
        some (if i ∈ s.job.rejected then .rejected else .fulfilled) := by
      rw [JobLoop.results, List.getElem?_map, List.getElem?_range hi]
      rfl
    by_cases hrej : i ∈ s.job.rejected
    · rw [if_pos hrej] at hget
      exact .inl ⟨hget, (hblame i).mp hrej⟩
    · rw [if_neg hrej] at hget
      refine .inr ⟨hget, fun hdoomed => hrej ((hblame i).mpr hdoomed), ?_⟩
      rcases h.kept.all i hi with hnil | hwait | hbegun | hrej'
      · cases hnil
      · rw [hnone] at hwait
        cases hwait
      · rcases h.kept.gone i hbegun with hrun | hdone | hfailed
        · rw [hidle] at hrun
          cases hrun
        · exact (h.kept.success i hdone).2.1
        · exact absurd ((hblame i).mpr ⟨i, hfailed, .refl⟩) hrej
      · exact absurd hrej' hrej

/-- Jobs respect their order, whatever becomes of the tasks; one without an order that
can be respected is refused before any of its tasks is started. -/
theorem runJob_respects_order (job : Job) :
    (IsAcyclicOrder job.taskQty job.order →
      (∃ s, (jobLoop job).init s) ∧
      (∀ s, (jobLoop job).Reachable TransitionSystem.anyStep s → RespectsOrder job s) ∧
      ∀ s as t, (jobLoop job).init s →
        (jobLoop job).runWhile TransitionSystem.anyStep s as = some t →
          as.length ≤ 2 * job.taskQty) ∧
    (¬ IsOrderOf job.taskQty job.order ∨ (job.order.map Prod.fst).Nodup ∧
        (∃ i, Relation.TransGen (Lists job.order) i i) →
      (∃ e, makeSchedule job = .error e) ∧ ∀ s, ¬ (jobLoop job).init s) := by
  constructor
  · intro hacyclic
    obtain ⟨order, hmake⟩ := makeDependencies_of_acyclic hacyclic.valid hacyclic.acyclic
    have hfold := foldlM_of_makeDependencies hmake
    have hlists : Requires order = Lists job.order := by
      funext i j
      exact propext ⟨(normalized_of_foldlM hfold).listed i j,
        requires_of_lists hacyclic.once hfold⟩
    refine ⟨?_, fun s hs => (loopSound_of_reachable hmake hs).respectsOrder hlists, ?_⟩
    · have hschedule : makeSchedule job =
          .ok { todo := List.range job.taskQty, dependencies := order } := by
        rw [makeSchedule, hmake]
        rfl
      exact ⟨_, _, [], hschedule, rfl⟩
    · intro s as t hinit hrun
      obtain ⟨hsound, hsettled, hstarted⟩ := loopSound_init hmake hinit
      obtain ⟨ht, hlength⟩ := hsound.run_length (makeDependencies_ok hmake).2 hrun
      have hstartedLength := length_le_of_nodup ht.kept.once ht.kept.started_within
      have hsettledLength := length_le_of_nodup ht.settledOnce
        fun i hi => ht.kept.started_within i (ht.kept.settledStarted i hi)
      omega
  · intro hbad
    have herror : ∃ e, makeSchedule job = .error e := by
      cases hmake : makeDependencies job.taskQty job.order with
      | error e =>
        rw [makeSchedule, hmake]
        exact ⟨e, rfl⟩
      | ok order =>
        have hfold := foldlM_of_makeDependencies hmake
        rcases hbad with hrange | ⟨honce, i, hcycle⟩
        · exact absurd (isOrderOf_of_foldlM hfold) hrange
        · obtain ⟨hnormalized, hall⟩ := makeDependencies_ok hmake
          have hcycle' : Relation.TransGen (Requires order) i i :=
            Relation.TransGen.mono (fun _ _ => requires_of_lists honce hfold) _ _ hcycle
          have hi : i < job.taskQty := by
            obtain ⟨j, hj, -⟩ := Relation.TransGen.head'_iff.mp hcycle'
            exact (hnormalized.within i j hj).1
          exact absurd hcycle' (hall.acyclic (Finset.mem_range.mpr hi))
    refine ⟨herror, ?_⟩
    rintro s ⟨schedule, throws, hschedule, -⟩
    obtain ⟨e, he⟩ := herror
    rw [he] at hschedule
    cases hschedule

end Outcomes

end AgoricSdk.Portfolio
