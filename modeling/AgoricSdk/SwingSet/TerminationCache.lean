import AgoricSdk.SwingSet.Frame
import AgoricSdk.SwingSet.System

/-!
The list of terminated vats is kept twice: in the database, and in the memory
of the kernel keeper. Every operation writes both alike, except the rollback of
an aborted crank, which restores the database only.
-/

namespace AgoricSdk.SwingSet

open StateProgram

set_option synthInstance.maxSize 2000

/-- The cached list is the stored one. -/
def CacheAgrees (s : KernelState) : Prop := s.terminatedVats = s.store.vatsTerminated

def KeepsCache (s t : KernelState) : Prop := CacheAgrees s → CacheAgrees t

instance : IsPreorder KernelState KeepsCache where
  refl _ := id
  trans _ _ _ h h' := h' ∘ h

/-- The two lists. -/
@[reducible] def KernelState.terminations (s : KernelState) : List VatID × List VatID :=
  (s.terminatedVats, s.store.vatsTerminated)

theorem keepsCache_of_terminations {s t : KernelState} (h : t.terminations = s.terminations) :
    KeepsCache s t := by
  intro hs
  have h₁ : t.terminatedVats = s.terminatedVats := congrArg Prod.fst h
  have h₂ : t.store.vatsTerminated = s.store.vatsTerminated := congrArg Prod.snd h
  exact h₁.trans (hs.trans h₂.symm)

theorem SameProcess.keepsCache {s t : KernelState} (h : SameProcess s t) : KeepsCache s t :=
  keepsCache_of_terminations
    (congrArg (fun p : ProcessView => (p.terminatedVats, p.vatsTerminated)) h)

instance {α : Type} (m : KM α) [Moves SameProcess m] : Moves KeepsCache m :=
  moves_mono m fun _ _ => SameProcess.keepsCache

instance {f : KernelState → KernelState}
    [h : Same (fun s => (f s).terminations) KernelState.terminations] :
    Moves KeepsCache (modify f : KM PUnit) :=
  moves_modify fun s => keepsCache_of_terminations (congrFun h.eq s)

instance {f : KVStore → KVStore}
    [h : Same (fun s : KernelState => KernelState.terminations { s with store := f s.store })
      KernelState.terminations] :
    Moves KeepsCache (modifyStore f) :=
  moves_modify fun s => keepsCache_of_terminations (congrFun h.eq s)

section Vats

instance (vatID : VatID) : Moves KeepsCache (markVatAsTerminated vatID) := by
  refine moves_modify fun s hs => ?_
  dsimp only
  split
  · exact hs
  · rfl

instance (vatID : VatID) : Moves KeepsCache (forgetTerminatedVat vatID) := by
  exact moves_modify fun _ _ => rfl

instance : Moves KeepsCache allocateUnusedVatID := by
  unfold allocateUnusedVatID; infer_instance

instance (vatID : VatID) : Moves KeepsCache (addDynamicVatID vatID) := by
  unfold addDynamicVatID; infer_instance

instance (vatID : VatID) : Moves KeepsCache (deleteVatID vatID) := by
  unfold deleteVatID; infer_instance

instance (vatID : VatID) (source : Source) (options : VatOptions) :
    Moves KeepsCache (createVatState vatID source options) := by
  unfold createVatState; infer_instance

instance (vatID : VatID) (source : Source) (options : VatOptions) :
    Moves KeepsCache (setSourceAndOptions vatID source options) := by
  unfold setSourceAndOptions; infer_instance

instance (vatID : VatID) : Moves KeepsCache (stopUsingTranscript vatID) := by
  unfold stopUsingTranscript; infer_instance

instance (vatID : VatID) (threshold : ReapDirtThreshold) :
    Moves KeepsCache (setReapDirtThreshold vatID threshold) := by
  unfold setReapDirtThreshold; infer_instance

instance (vatID : VatID) (reapInterval : Threshold) :
    Moves KeepsCache (setKernelVatOption vatID reapInterval) := by
  unfold setKernelVatOption
  split <;> infer_instance

instance (vatID : VatID) : Moves KeepsCache (evict vatID) := by
  unfold evict; infer_instance

instance (vatID : VatID) : Moves KeepsCache (stopWorker vatID) := by
  unfold stopWorker; infer_instance

instance (vatID : VatID) (recreate workerStarts : Bool) :
    Moves KeepsCache (ensureVatOnline vatID recreate workerStarts) := by
  unfold ensureVatOnline; infer_instance

instance (vatID : VatID) : Moves KeepsCache (beginDelivery vatID) := by
  unfold beginDelivery; infer_instance

instance (vatID : VatID) : Moves KeepsCache (beginNewWorkerIncarnation vatID) := by
  unfold beginNewWorkerIncarnation; infer_instance

instance (vatID : VatID) : Moves KeepsCache (recordTermination vatID) := by
  have h : Moves KeepsCache (forPromisesByDecider vatID fun kpid _ =>
      resolveToError kpid makeError (some vatID)) :=
    @moves_mono _ _ _ _ _ _ (sameProcess_forPromisesByDecider fun _ _ => inferInstance)
      fun _ _ => SameProcess.keepsCache
  unfold recordTermination
  infer_instance

instance (vatID : VatID) (info : CapData KSlot) : Moves KeepsCache (terminateVat vatID info) := by
  unfold terminateVat
  refine moves_seq inferInstance fun critical => ?_
  dsimp only
  split
  · infer_instance
  · refine moves_seq inferInstance fun st => ?_
    split <;> infer_instance

instance : Moves KeepsCache stopPendingWorkers := by
  unfold stopPendingWorkers; infer_instance

end Vats

section Syscalls

instance (source : Source) (vatParameters : CapData KSlot)
    (dynamicOptions : VatOptions) :
    Moves KeepsCache (queueCreateVat source vatParameters dynamicOptions) := by
  unfold queueCreateVat; infer_instance

instance (slots : List KSlot) (request : HookRequest) :
    Moves KeepsCache (callKernelHook slots request) := by
  cases request <;> unfold callKernelHook <;> infer_instance

instance (deviceID : DeviceID) (call : DeviceCall) :
    Moves KeepsCache (runDeviceCall deviceID call) := by
  cases call <;> unfold runDeviceCall <;> infer_instance

instance (deviceID : DeviceID) (calls : List (DeviceCall × Bool)) :
    Moves KeepsCache (runDeviceCalls deviceID calls) := by
  unfold runDeviceCalls
  refine @moves_forM _ _ _ _ _ _ (fun call => ?_) calls
  refine moves_seq inferInstance fun result => ?_
  split <;> infer_instance

instance (device : KSlot) (args : CapData KSlot) (script : DeviceScript) :
    Moves KeepsCache (invoke device args script) := by
  unfold invoke
  refine moves_seq inferInstance fun _ => moves_seq inferInstance fun _ => ?_
  refine moves_seq inferInstance fun _ => moves_seq inferInstance fun _ => ?_
  refine moves_seq inferInstance fun _ => moves_seq inferInstance fun _ => ?_
  split
  · infer_instance
  · split <;> infer_instance

instance (reject : Bool) (info : CapData KSlot) :
    Moves KeepsCache (requestTermination reject info) := by
  unfold requestTermination; infer_instance

instance (script : DeviceScript) (ksc : KernelSyscall) :
    Moves KeepsCache (kernelSyscallHandler script ksc) := by
  cases ksc <;> unfold kernelSyscallHandler <;> infer_instance

instance (fault : Fault) : Moves KeepsCache (vatFatalSyscall fault) := by
  unfold vatFatalSyscall; infer_instance

instance (vatID : VatID) (script : DeviceScript) (ksc : KernelSyscall) :
    Moves KeepsCache (executeSyscall vatID script ksc) := by
  unfold executeSyscall; infer_instance

instance (vatID : VatID) (vso : VatSyscall) (script : DeviceScript) :
    Moves KeepsCache (vatSyscallHandler vatID vso script) := by
  unfold vatSyscallHandler
  refine moves_seq inferInstance fun _ => ?_
  split
  · infer_instance
  · refine moves_seq inferInstance fun _ => ?_
    split
    · infer_instance
    · refine moves_seq inferInstance fun _ => ?_
      split <;> infer_instance

end Syscalls

section Deliveries

instance (vatID : VatID) (target : KSlot) (msg : Message) :
    Moves KeepsCache (processSend vatID target msg) := by
  unfold processSend
  refine moves_seq inferInstance fun _ => ?_
  split
  · infer_instance
  · refine moves_seq inferInstance fun _ => ?_
    dsimp only
    split <;> infer_instance

instance (vatID : VatID) (kpid : KSlot) : Moves KeepsCache (processNotify vatID kpid) := by
  unfold processNotify
  refine moves_seq inferInstance fun _ => ?_
  split
  · infer_instance
  · refine moves_seq inferInstance fun p => moves_seq inferInstance fun _ => ?_
    dsimp only
    split <;> infer_instance

instance (type : GcActionType) (vatID : VatID) (krefs : List KSlot) :
    Moves KeepsCache (processGCMessage type vatID krefs) := by
  unfold processGCMessage
  refine moves_seq inferInstance fun _ => ?_
  split <;> infer_instance

instance (vatID : VatID) : Moves KeepsCache (processBringOutYourDead vatID) := by
  unfold processBringOutYourDead
  refine moves_seq inferInstance fun _ => ?_
  split <;> infer_instance

instance {κ : Type} (act : κ → KM Bool) [∀ key, Moves KeepsCache (act key)]
    (budget : Option Nat) (keys : List κ) :
    Moves KeepsCache (cleanupPhase act budget keys) := by
  induction keys generalizing budget with
  | nil => unfold cleanupPhase; infer_instance
  | cons key keys ih => unfold cleanupPhase; infer_instance

instance (vatID : VatID) (key : VatKey) : Moves KeepsCache (deleteVatKey vatID key) := by
  unfold deleteVatKey
  refine moves_seq (moves_modify fun s => keepsCache_of_terminations ?_) fun _ => inferInstance
  cases key <;> rfl

instance (vatID : VatID) (vref : JSString) : Moves KeepsCache (orphanExport vatID vref) := by
  unfold orphanExport
  refine moves_seq inferInstance fun _ => ?_
  split <;> infer_instance

instance (vatID : VatID) (vref : JSString) : Moves KeepsCache (abandonEntry vatID vref) := by
  unfold abandonEntry
  refine moves_seq inferInstance fun _ => ?_
  split <;> infer_instance

instance (vatID : VatID) (budget : CleanupBudget) (report : UndertakerReport) :
    Moves KeepsCache (cleanupAfterTerminatedVat vatID budget report) := by
  unfold cleanupAfterTerminatedVat
  dsimp only
  infer_instance

instance (vatID : VatID) (budget : CleanupBudget) (report : UndertakerReport) :
    Moves KeepsCache (processCleanupTerminatedVat vatID budget report) := by
  unfold processCleanupTerminatedVat
  dsimp only
  infer_instance

instance (vatID : VatID) (vatParameters : CapData KSlot) :
    Moves KeepsCache (startVatDelivery vatID vatParameters) := by
  unfold startVatDelivery; infer_instance

instance (vatID : VatID) (vatParameters : CapData KSlot)
    (rest : Option MeterID → Continuation) :
    Moves KeepsCache (processStartVat vatID vatParameters rest) := by
  unfold processStartVat
  refine moves_seq inferInstance fun _ => ?_
  split <;> infer_instance

instance (vatID : VatID) (source : Source) (vatParameters : CapData KSlot)
    (dynamicOptions : VatOptions) (workerStarts : Bool) :
    Moves KeepsCache (processCreateVat vatID source vatParameters dynamicOptions workerStarts) := by
  unfold processCreateVat
  refine moves_seq inferInstance fun _ => moves_seq inferInstance fun _ => ?_
  refine moves_seq inferInstance fun _ => moves_seq inferInstance fun _ => ?_
  refine moves_seq inferInstance fun _ => ?_
  split
  · infer_instance
  · refine moves_seq inferInstance fun _ => ?_
    split <;> infer_instance

instance (vatID : VatID) (options : ChangedOptions) :
    Moves KeepsCache (processChangeVatOptions vatID options) := by
  unfold processChangeVatOptions
  refine moves_seq inferInstance fun _ => ?_
  split <;> infer_instance

instance (vatID : VatID) (bundleID : JSString) (vatParameters : CapData KSlot) :
    Moves KeepsCache (processUpgradeVat vatID bundleID vatParameters) := by
  unfold processUpgradeVat
  refine moves_seq inferInstance fun _ => ?_
  refine moves_seq inferInstance fun _ => ?_
  refine moves_seq inferInstance fun _ => ?_
  split <;> infer_instance

instance (message : RunQueueEvent) (env : Environment) :
    Moves KeepsCache (deliverRunQueueEvent message env) := by
  unfold deliverRunQueueEvent
  split
  · refine moves_seq inferInstance fun _ => ?_
    split <;> infer_instance
  all_goals infer_instance

instance (vatID : VatID) (isBoyd useTranscript : Bool) (report : DeliveryReport) :
    Moves KeepsCache (endDelivery vatID isBoyd useTranscript report) := by
  unfold endDelivery
  dsimp only
  infer_instance

instance (vatID : VatID) (badDeliveryResults : CrankResults) (computrons : Option Nat) :
    Moves KeepsCache (abortUpgrade vatID badDeliveryResults computrons) := by
  unfold abortUpgrade; infer_instance

instance (vatID : VatID) (meterID : Option MeterID) (bundleID : JSString)
    (vatParameters : CapData KSlot) (report : DeliveryReport) :
    Moves KeepsCache (finishUpgradeBoyd vatID meterID bundleID vatParameters report) := by
  unfold finishUpgradeBoyd; infer_instance

instance (vatID : VatID) (meterID boydComputrons : Option Nat) (report : DeliveryReport) :
    Moves KeepsCache (finishUpgradeStart vatID meterID boydComputrons report) := by
  unfold finishUpgradeStart; infer_instance

instance (vatID : VatID) (meterID : Option MeterID) (report : DeliveryReport) :
    Moves KeepsCache (finishCreateVat vatID meterID report) := by
  unfold finishCreateVat; infer_instance

instance (vatID : VatID) (rest : Continuation) (report : DeliveryReport) :
    Moves KeepsCache (continueDelivery vatID rest report) := by
  unfold continueDelivery
  split <;> infer_instance

end Deliveries

section Cranks

instance (vatID : VatID) (saveSnapshot : Bool) :
    Moves KeepsCache (maybeSaveSnapshot vatID saveSnapshot) := by
  unfold maybeSaveSnapshot; infer_instance

instance (results : CrankResults) : Moves KeepsCache (settleTermination results) := by
  unfold settleTermination
  split <;> infer_instance

instance (results : CrankResults) : Moves KeepsCache (settleCrank results) := by
  unfold settleCrank; infer_instance

instance : Moves KeepsCache saveStats := by
  unfold saveStats; infer_instance

instance : Moves KeepsCache emitCrankHashes := by
  unfold emitCrankHashes; infer_instance

instance : Moves KeepsCache endCrank := by
  unfold endCrank; infer_instance

instance : Moves KeepsCache incrementCrankNumber := by
  unfold incrementCrankNumber; infer_instance

instance : Moves KeepsCache finishCrank := by
  unfold finishCrank; infer_instance

instance (savepoint : Savepoint) : Moves KeepsCache (establishCrankSavepoint savepoint) := by
  cases savepoint <;> unfold establishCrankSavepoint <;> infer_instance

instance (maxPreload : Nat) : Moves KeepsCache (startKernel maxPreload) := by
  have h : Moves KeepsCache loadKernel := moves_modify fun _ _ => rfl
  unfold startKernel
  infer_instance

instance (message : RunQueueEvent) (progress : Progress) :
    Moves KeepsCache (phaseOfProgress message progress) := by
  unfold phaseOfProgress
  split <;> infer_instance

instance (allowCleanup : AllowCleanup) : Moves KeepsCache (startCrank allowCleanup) := by
  unfold startCrank
  refine moves_seq inferInstance fun _ => ?_
  refine moves_seq inferInstance fun _ => ?_
  split <;> infer_instance

instance (message : RunQueueEvent) : Moves KeepsCache (processRouting message) := by
  unfold processRouting; infer_instance

instance (message : RunQueueEvent) (env : Environment) :
    Moves KeepsCache (processDelivery message env) := by
  unfold processDelivery; infer_instance

instance (message : RunQueueEvent) (vatID : VatID) (useTranscript : Bool)
    (rest : Continuation) (report : DeliveryReport) :
    Moves KeepsCache (deliveryDone message vatID useTranscript rest report) := by
  unfold deliveryDone; infer_instance

instance (message : RunQueueEvent) (vatID : VatID) (results : CrankResults) :
    Moves KeepsCache (snapshotDone message vatID results) := by
  unfold snapshotDone; infer_instance

instance (message : RunQueueEvent) (results : CrankResults) :
    Moves KeepsCache (settlePhase message results) := by
  unfold settlePhase; infer_instance

instance : Moves KeepsCache collectPhase := by
  unfold collectPhase; infer_instance

instance (deviceID : DeviceID) (target : JSString) (methargs : CapData JSString) :
    Moves KeepsCache (deviceInput deviceID target methargs) := by
  unfold deviceInput; infer_instance

end Cranks

section Aborts

/-- If the step rolls a crank back, then the stored list is the one of the
savepoint already. -/
def NoTerminationToUndo (k : Kernel) : Action → Prop
  | .rollbackOrSnapshot _ =>
    match k.phase with
    | .delivered _ results =>
      results.abort = true → ∀ saved ∈ k.state.savedAt results.savepoint,
        saved.vatsTerminated = k.state.store.vatsTerminated
    | _ => True
  | _ => True

instance (k : Kernel) (a : Action) : Decidable (NoTerminationToUndo k a) := by
  unfold NoTerminationToUndo
  split
  · split <;> infer_instance
  · infer_instance

theorem rollback_cacheAgrees_iff {s : KernelState} (hs : CacheAgrees s) {message : RunQueueEvent}
    {results : CrankResults} (saveSnapshot : Bool) (habort : results.abort = true) :
    CacheAgrees (finalState (rollbackOrSnapshot message results saveSnapshot) s) ↔
      ∀ saved ∈ s.savedAt results.savepoint, saved.vatsTerminated = s.store.vatsTerminated := by
  have hprogram : rollbackOrSnapshot message results saveSnapshot =
      (rollbackCrank results.savepoint >>= fun _ => pure (.settling message results)) := by
    unfold rollbackOrSnapshot
    rw [if_pos habort]
  have hrun : rollbackOrSnapshot message results saveSnapshot s =
      EStateM.bind (rollbackCrank results.savepoint)
        (fun _ => pure (.settling message results)) s := by rw [hprogram]; rfl
  unfold finalState
  rw [hrun, EStateM.bind]
  cases h : s.savedAt results.savepoint with
  | none =>
    rw [rollbackCrank_of_not_saved h]
    simpa using hs
  | some saved =>
    rw [rollbackCrank_of_saved h]
    change s.terminatedVats = saved.vatsTerminated ↔ _
    rw [show s.terminatedVats = s.store.vatsTerminated from hs]
    simp [eq_comm]

theorem rollbackOrSnapshot_keepsCache (message : RunQueueEvent) {results : CrankResults}
    (saveSnapshot : Bool) (h : ¬ results.abort = true) :
    Moves KeepsCache (rollbackOrSnapshot message results saveSnapshot) := by
  unfold rollbackOrSnapshot
  rw [if_neg h]
  split <;> infer_instance

theorem actionProgram_keepsCache {phase : Phase} {a : Action} {program : KM Phase}
    (h : actionProgram phase a = some program)
    (habort : ∀ message results saveSnapshot, phase = .delivered message results →
      a = .rollbackOrSnapshot saveSnapshot → ¬ results.abort = true) :
    Moves KeepsCache program := by
  unfold actionProgram at h
  split at h
  case h_10 message results saveSnapshot =>
    cases h
    exact rollbackOrSnapshot_keepsCache message saveSnapshot (habort _ _ _ rfl rfl)
  case h_15 => cases h
  case h_16 =>
    split at h
    · cases h
    · cases h
      infer_instance
  all_goals cases h
  all_goals infer_instance

theorem Kernel.run_cacheAgrees_iff (k : Kernel) (program : KM Phase) :
    CacheAgrees (k.run program).state ↔ CacheAgrees (finalState program k.state) := by
  unfold Kernel.run finalState
  cases program k.state <;> rfl

theorem step_cacheAgrees_iff {k t : Kernel} {a : Action} (hk : CacheAgrees k.state)
    (h : swingset.step k a = some t) : CacheAgrees t.state ↔ NoTerminationToUndo k a := by
  obtain ⟨program, hprogram, rfl⟩ := Option.map_eq_some_iff.mp h
  rw [Kernel.run_cacheAgrees_iff]
  by_cases hab : ∃ message results saveSnapshot, k.phase = .delivered message results ∧
      a = .rollbackOrSnapshot saveSnapshot ∧ results.abort = true
  · obtain ⟨message, results, saveSnapshot, hphase, rfl, habort⟩ := hab
    rw [hphase] at hprogram
    cases hprogram
    rw [rollback_cacheAgrees_iff hk saveSnapshot habort]
    unfold NoTerminationToUndo
    rw [hphase]
    exact ⟨fun h _ => h, fun h => h habort⟩
  · have hmoves := actionProgram_keepsCache hprogram fun message results saveSnapshot hp ha hr =>
      hab ⟨message, results, saveSnapshot, hp, ha, hr⟩
    refine iff_of_true (hmoves.rel k.state hk) ?_
    unfold NoTerminationToUndo
    split
    · split
      case h_1 saveSnapshot message results hp => exact fun hr => absurd ⟨_, _, _, hp, rfl, hr⟩ hab
      case h_2 => trivial
    · trivial

theorem initial_cacheAgrees {k : Kernel} (h : k.Initial) : CacheAgrees k.state := by
  obtain ⟨cfg, maxPreload, s, hs, rfl⟩ := h
  have hload : Wp (initializeKernel cfg >>= fun _ => startKernel maxPreload)
      (fun _ t => CacheAgrees t) (fun _ _ => True) (startingState cfg) := by
    have hpreload : ∀ t : KernelState, CacheAgrees t → ∀ vats : List VatID,
        Wp (vats.forM fun vatID => ensureVatOnline vatID true true)
          (fun _ u => CacheAgrees u) (fun _ _ => True) t := fun t ht vats =>
      wp_mono (wp_of_moves KeepsCache _ t) (fun _ _ h => h ht) fun _ _ _ => trivial
    rw [wp_bind]
    refine wp_mono (Q := fun _ _ => True) (E := fun _ _ => True) ?_ (fun _ t _ => ?_)
      fun _ _ h => h
    · unfold Wp
      cases initializeKernel cfg (startingState cfg) <;> trivial
    · simp only [startKernel, loadKernel, getStaticVats, getStore, wp_bind, wp_modify, wp_get,
        wp_pure]
      refine hpreload _ ?_ _
      rfl
  exact wp_of_ok (Q := fun _ t => CacheAgrees t) hload hs

/-- As long as no rollback undoes a termination, the cached list is the stored
one; and the next step keeps it so exactly if it does not do that either. -/
theorem cacheAgrees_of_reachable {k : Kernel} (h : swingset.Reachable NoTerminationToUndo k) :
    CacheAgrees k.state ∧ ∀ a t, swingset.step k a = some t →
      (CacheAgrees t.state ↔ NoTerminationToUndo k a) := by
  have hk : CacheAgrees k.state := h.invariant (I := fun k => CacheAgrees k.state)
    (fun _ => initial_cacheAgrees) fun _ _ _ hs hok hstep => (step_cacheAgrees_iff hs hstep).mpr hok
  exact ⟨hk, fun _ _ => step_cacheAgrees_iff hk⟩

/-- The device terminates `v1`, then the vat that called it makes an illegal
syscall. -/
def terminateAndAbort : List Action :=
  [.syscall (.callNow ['d', '-', '7', '0'] ⟨.value [], []⟩)
      ⟨[(.callKernelHook [] (.terminate 1 (.value [])), false)], some ⟨.value [], []⟩⟩,
    .syscall (.dropImports [['x']]) noScript]

/-- After the rollback `v1` is in the cached list only. -/
theorem cache_disagrees_after_abort :
    ∃ k, swingset.Reachable TransitionSystem.anyStep k ∧ ¬ CacheAgrees k.state := by
  have h : ((Kernel.afterBoot TransitionSystem.anyStep twoVats
      (twoVatsStarted ++ deliveryUpToSettle terminateAndAbort ⟨true, none⟩)).map fun k =>
        (k.state.terminatedVats, k.state.store.vatsTerminated)) = some ([1], []) := by
    decide +kernel
  obtain ⟨k, hk, hlists⟩ := Option.map_eq_some_iff.mp h
  refine ⟨k, reachable_of_afterBoot hk, fun hagree => ?_⟩
  have h₁ : k.state.terminatedVats = [1] := congrArg Prod.fst hlists
  have h₂ : k.state.store.vatsTerminated = [] := congrArg Prod.snd hlists
  rw [CacheAgrees, h₁, h₂] at hagree
  exact absurd hagree (by decide)

/-- A run with a crank that aborts after an illegal syscall alone. -/
theorem cacheAgrees_of_reachable_abort :
    ∃ k, k.state.caughtFaults = [.invalidVref ['x']] ∧ CacheAgrees k.state ∧
      ∀ a t, swingset.step k a = some t → (CacheAgrees t.state ↔ NoTerminationToUndo k a) := by
  have h : ((Kernel.afterBoot NoTerminationToUndo twoVats (twoVatsStarted ++
      deliveryUpToSettle [.syscall (.dropImports [['x']]) noScript] ⟨true, none⟩)).map fun k =>
        k.state.caughtFaults) = some [.invalidVref ['x']] := by
    decide +kernel
  obtain ⟨k, hk, hfaults⟩ := Option.map_eq_some_iff.mp h
  exact ⟨k, hfaults, cacheAgrees_of_reachable (reachable_of_afterBoot hk)⟩

end Aborts

end AgoricSdk.SwingSet
