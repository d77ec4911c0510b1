import AgoricSdk.Lib.InFlight
import AgoricSdk.Vow.WatchUtils

/-!
Combined vows report every outcome in place. Each specimen's result is the one its chain of
vows ends with, and each combined vow is settled once, from the results of its own specimens
as they were received.
-/

namespace AgoricSdk.Vow

open InFlight StateProgram TransitionSystem

variable {ν κ : Type}

section Unwrap

variable (isRetryableReason : ν → Option κ → Option κ) (cycleDetected : ν)

/-- The loop that follows a chain of vows, after the answers so far: the vow that is asked, and
the value of the last retry. A step that fails is tried again if the reason allows it. -/
inductive Unwrapping : List (Answer ν) → Option ℕ → Option κ → Prop where
  | start : Unwrapping [] none none
  | shortened {answers : List (Answer ν)} {vow : Option ℕ} {prior : Option κ} {vowV0 : ℕ}
      (h : Unwrapping answers vow prior) :
      Unwrapping (answers ++ [.vow vowV0]) (some vowV0) prior
  | retried {answers : List (Answer ν)} {vowV0 : ℕ} {prior : Option κ} {reason : ν}
      {retryValue : κ} (h : Unwrapping answers (some vowV0) prior)
      (hretry : isRetryableReason reason prior = some retryValue) :
      Unwrapping (answers ++ [.rejected reason]) (some vowV0) (some retryValue)
  | cycleRetried {answers : List (Answer ν)} {vow vowV0 : ℕ} {prior : Option κ}
      {retryValue : κ} (h : Unwrapping answers (some vow) prior)
      (hretry : isRetryableReason cycleDetected prior = some retryValue) :
      Unwrapping (answers ++ [.vow vowV0]) (some vow) (some retryValue)

/-- The result with which the chain ends. -/
inductive Unwrapped : List (Answer ν) → Result ν → Prop where
  | fulfilled {answers : List (Answer ν)} {vow : Option ℕ} {prior : Option κ} {value : ν}
      (h : Unwrapping isRetryableReason cycleDetected answers vow prior) :
      Unwrapped (answers ++ [.fulfilled value]) (.fulfilled value)
  | rejected {answers : List (Answer ν)} {vow : Option ℕ} {prior : Option κ} {reason : ν}
      (h : Unwrapping isRetryableReason cycleDetected answers vow prior)
      (hfinal : vow = none ∨ isRetryableReason reason prior = none) :
      Unwrapped (answers ++ [.rejected reason]) (.rejected reason)
  | cycle {answers : List (Answer ν)} {vow : Option ℕ} {prior : Option κ} {vowV0 : ℕ}
      (h : Unwrapping isRetryableReason cycleDetected answers vow prior)
      (hseen : .vow vowV0 ∈ answers) :
      Unwrapped (answers ++ [.vow vowV0]) (.rejected cycleDetected)

end Unwrap

section Watchers

variable {isRetryableReason : ν → Option κ → Option κ} {errors : CombineErrors ν}
  {watcher watcher' : PromiseWatcher ν κ}

/-- A watcher that has its resolver is following its chain. -/
structure WatcherInv (isRetryableReason : ν → Option κ → Option κ) (errors : CombineErrors ν)
    (watcher : PromiseWatcher ν κ) : Prop where
  live : watcher.hasResolver = true ↔ watcher.promise ≠ .done
  unwrapping : watcher.hasResolver = true → Unwrapping isRetryableReason errors.cycleDetected
    watcher.answers watcher.vow watcher.priorRetryValue
  seen : ∀ vowV0 ∈ watcher.seenPayloads, .vow vowV0 ∈ watcher.answers

/-- What a watcher does with an answer: it goes on, or it settles with its result. -/
structure Reacts (isRetryableReason : ν → Option κ → Option κ) (errors : CombineErrors ν)
    (watcher watcher' : PromiseWatcher ν κ) (result : Option (Result ν)) : Prop where
  context : watcher'.context = watcher.context
  inv : WatcherInv isRetryableReason errors watcher'
  resolver : watcher'.hasResolver = result.isNone
  unwrapped : ∀ r ∈ result, Unwrapped isRetryableReason errors.cycleDetected watcher'.answers r

def PromiseWatcher.asked (watcher : PromiseWatcher ν κ) (answer : Answer ν) :
    PromiseWatcher ν κ :=
  { watcher with promise := .done, answers := watcher.answers ++ [answer] }

@[simp] theorem asked_prior (watcher : PromiseWatcher ν κ) (answer : Answer ν) :
    (watcher.asked answer).priorRetryValue = watcher.priorRetryValue := rfl

@[simp] theorem asked_vow (watcher : PromiseWatcher ν κ) (answer : Answer ν) :
    (watcher.asked answer).vow = watcher.vow := rfl

@[simp] theorem asked_seen (watcher : PromiseWatcher ν κ) (answer : Answer ν) :
    (watcher.asked answer).seenPayloads = watcher.seenPayloads := rfl

theorem settle_reacts {answer : Answer ν} {result : Result ν}
    (hunwrapped : Unwrapped isRetryableReason errors.cycleDetected (watcher.answers ++ [answer])
      result) :
    ∃ watcher', (watcher.asked answer).settle result = .ok (watcher', some result) ∧
      Reacts isRetryableReason errors watcher watcher' (some result) := by
  refine ⟨_, rfl, rfl, ⟨?_, ?_, ?_⟩, rfl, ?_⟩
  · exact ⟨nofun, fun hdone => absurd rfl hdone⟩
  · exact nofun
  · exact nofun
  · intro r hr
    cases hr
    exact hunwrapped

theorem onRejected_reacts (hresolver : watcher.hasResolver = true) {answer : Answer ν}
    {reason : ν} (hseen : ∀ vowV0 ∈ watcher.seenPayloads, .vow vowV0 ∈ watcher.answers)
    (hretried : ∀ retryValue, watcher.vow.isSome = true →
      isRetryableReason reason watcher.priorRetryValue = some retryValue →
        Unwrapping isRetryableReason errors.cycleDetected (watcher.answers ++ [answer]) watcher.vow
          (some retryValue))
    (hfinal : watcher.vow = none ∨
      isRetryableReason reason watcher.priorRetryValue = none →
        Unwrapped isRetryableReason errors.cycleDetected (watcher.answers ++ [answer])
          (.rejected reason)) :
    ∃ watcher' result, (watcher.asked answer).onRejected isRetryableReason reason =
      .ok (watcher', result) ∧ Reacts isRetryableReason errors watcher watcher' result := by
  have hasked : ¬ (watcher.asked answer).hasResolver = false := by
    intro hfalse
    cases hresolver.symm.trans hfalse
  unfold PromiseWatcher.onRejected
  rw [if_neg hasked, asked_prior, asked_vow]
  cases hreason : isRetryableReason reason watcher.priorRetryValue with
  | none =>
    obtain ⟨watcher', hsettle, hreacts⟩ := settle_reacts (hfinal (.inr hreason))
    exact ⟨watcher', _, hsettle, hreacts⟩
  | some retryValue =>
    dsimp only
    by_cases hvow : watcher.vow.isSome = true
    · rw [if_pos hvow]
      refine ⟨_, _, rfl, rfl, ⟨?_, ?_, ?_⟩, ?_, nofun⟩
      · exact ⟨fun _ => nofun, fun _ => hresolver⟩
      · exact fun _ => hretried retryValue hvow hreason
      · exact fun vowV0 hmem => List.mem_append_left _ (hseen vowV0 hmem)
      · exact hresolver
    · rw [if_neg hvow]
      have hnone : watcher.vow = none := Option.not_isSome_iff_eq_none.mp hvow
      obtain ⟨watcher', hsettle, hreacts⟩ := settle_reacts (hfinal (.inl hnone))
      exact ⟨watcher', _, hsettle, hreacts⟩

theorem call_reacts (h : WatcherInv isRetryableReason errors watcher)
    (hresolver : watcher.hasResolver = true) (answer : Answer ν) :
    ∃ watcher' result, (watcher.asked answer).call isRetryableReason errors.cycleDetected answer =
      .ok (watcher', result) ∧ Reacts isRetryableReason errors watcher watcher' result := by
  have hunwrapping := h.unwrapping hresolver
  have hasked : ∀ answer, ¬ (watcher.asked answer).hasResolver = false := by
    intro answer hfalse
    cases hresolver.symm.trans hfalse
  cases answer with
  | fulfilled value =>
    unfold PromiseWatcher.call PromiseWatcher.onFulfilled
    dsimp only
    rw [if_neg (hasked _)]
    obtain ⟨watcher', hsettle, hreacts⟩ := settle_reacts (.fulfilled hunwrapping)
    exact ⟨watcher', _, hsettle, hreacts⟩
  | vow vowV0 =>
    unfold PromiseWatcher.call PromiseWatcher.onFulfilled
    dsimp only
    rw [if_neg (hasked _), asked_seen]
    by_cases hcycle : vowV0 ∈ watcher.seenPayloads
    · rw [if_pos hcycle]
      apply onRejected_reacts hresolver h.seen
      · intro retryValue hvow hretry
        obtain ⟨vow, hvow⟩ := Option.isSome_iff_exists.mp hvow
        rw [hvow] at hunwrapping ⊢
        exact .cycleRetried hunwrapping hretry
      · exact fun _ => .cycle hunwrapping (h.seen vowV0 hcycle)
    · rw [if_neg hcycle]
      refine ⟨_, _, rfl, rfl, ⟨?_, ?_, ?_⟩, ?_, nofun⟩
      · exact ⟨fun _ => nofun, fun _ => hresolver⟩
      · exact fun _ => .shortened hunwrapping
      · intro vow hmem
        rcases List.mem_cons.mp hmem with heq | hmem
        · rw [heq]
          exact List.mem_append_right _ (List.mem_singleton_self _)
        · exact List.mem_append_left _ (h.seen vow hmem)
      · exact hresolver
  | rejected reason =>
    apply onRejected_reacts hresolver h.seen
    · intro retryValue hvow hretry
      obtain ⟨vow, hvow⟩ := Option.isSome_iff_exists.mp hvow
      rw [hvow] at hunwrapping ⊢
      exact .retried hunwrapping hretry
    · exact fun hfinal => .rejected hunwrapping hfinal

end Watchers

section Process

variable {isStorable : Entry ν → Bool} {errors : CombineErrors ν} {w : CombineWorld ν κ}

def CombineWorld.nonStorable (w : CombineWorld ν κ) (id : ℕ) : Table ℕ (Entry ν) :=
  (w.idToNonStorableResults.lookup id).getD ∅

def storedWith (isStorable : Entry ν → Bool) (index : ℕ) (entry : Entry ν)
    (resultsMap : Table ℕ (Entry ν)) : Table ℕ (Entry ν) :=
  if isStorable entry then resultsMap.insert index entry else resultsMap

def heldWith (isStorable : Entry ν → Bool) (index : ℕ) (entry : Entry ν)
    (nonStorableResults : Table ℕ (Entry ν)) : Table ℕ (Entry ν) :=
  if isStorable entry then nonStorableResults else nonStorableResults.insert index entry

theorem keepResult_run {id index : ℕ} {resultsMap : Table ℕ (Entry ν)} {entry : Entry ν}
    (hnew : isStorable entry = true → resultsMap.has index = false) :
    keepResult isStorable id index resultsMap entry w =
      .ok (storedWith isStorable index entry resultsMap) { w with
        idToNonStorableResults := w.idToNonStorableResults.insert id
          (heldWith isStorable index entry (w.nonStorable id)) } := by
  unfold keepResult storedWith heldWith
  rw [bind_run get_run]
  dsimp only
  cases hstorable : isStorable entry with
  | true =>
    rw [hnew hstorable]
    rfl
  | false => rfl

/-- The combined vow gets its outcome, and its state is gone. -/
def CombineWorld.concluded (w : CombineWorld ν κ) (id resolver : ℕ) (outcome : Combined ν) :
    CombineWorld ν κ :=
  { w with
    idToVowState := w.idToVowState.erase id
    idToNonStorableResults := w.idToNonStorableResults.erase id
    resolutions := w.resolutions ++ [(resolver, outcome)] }

/-- A result is kept, and others are waited for. -/
def CombineWorld.kept (isStorable : Entry ν → Bool) (w : CombineWorld ν κ)
    (context : WatcherContext) (state : VowState ν) (entry : Entry ν) : CombineWorld ν κ :=
  { w with
    idToVowState := w.idToVowState.insert context.id
      { resolver := state.resolver
        remaining := state.remaining - 1
        resultsMap := storedWith isStorable context.index entry state.resultsMap
        isAllSettled := context.isAllSettled }
    idToNonStorableResults := w.idToNonStorableResults.insert context.id
      (heldWith isStorable context.index entry (w.nonStorable context.id)) }

/-- The outcome when every result has been received. -/
def completion (errors : CombineErrors ν) (context : WatcherContext)
    (nonStorableResults resultsMap : Table ℕ (Entry ν)) : Combined ν :=
  let numLost := countLost context.numResults nonStorableResults resultsMap
  if 0 < numLost ∧ context.isAllSettled = false then .rejected (errors.resultsLost numLost)
  else .fulfilled (extractResults errors context.numResults context.isAllSettled
    nonStorableResults resultsMap)

theorem deleteVowState_run {id : ℕ} (h : w.idToVowState.has id = true) :
    deleteVowState id w = .ok ⟨⟩ { w with
      idToVowState := w.idToVowState.erase id
      idToNonStorableResults := w.idToNonStorableResults.erase id } := by
  unfold deleteVowState
  rw [bind_run get_run, h]
  rfl

variable {context : WatcherContext} {state : VowState ν} {result : Result ν}

theorem processResult_settled (h : w.idToVowState.lookup context.id = none) :
    processResult isStorable errors result context w = .ok ⟨⟩ w := by
  unfold processResult
  dsimp only
  rw [bind_run get_run, h]
  rfl

theorem processResult_rejected (h : w.idToVowState.lookup context.id = some state)
    (hfails : context.isAllSettled = false ∧ result.isRejected = true) :
    processResult isStorable errors result context w =
      .ok ⟨⟩ (w.concluded context.id state.resolver (.rejected result.value)) := by
  unfold processResult
  dsimp only
  rw [bind_run get_run, h]
  dsimp only
  rw [if_pos hfails, bind_run (deleteVowState_run (Table.has_of_lookup h))]
  rfl

theorem processResult_kept (h : w.idToVowState.lookup context.id = some state)
    (hkeep : ¬ (context.isAllSettled = false ∧ result.isRejected = true))
    (hnew : isStorable (wrapResult context.isAllSettled result) = true →
      state.resultsMap.has context.index = false) (hmore : 1 < state.remaining) :
    processResult isStorable errors result context w =
      .ok ⟨⟩ (w.kept isStorable context state (wrapResult context.isAllSettled result)) := by
  unfold processResult
  dsimp only
  rw [bind_run get_run, h]
  dsimp only
  rw [if_neg hkeep, bind_run (keepResult_run hnew), if_pos hmore]
  rfl

theorem processResult_complete (h : w.idToVowState.lookup context.id = some state)
    (hkeep : ¬ (context.isAllSettled = false ∧ result.isRejected = true))
    (hnew : isStorable (wrapResult context.isAllSettled result) = true →
      state.resultsMap.has context.index = false) (hlast : ¬ 1 < state.remaining) :
    processResult isStorable errors result context w =
      .ok ⟨⟩ (w.concluded context.id state.resolver (completion errors context
        (heldWith isStorable context.index (wrapResult context.isAllSettled result)
          (w.nonStorable context.id))
        (storedWith isStorable context.index (wrapResult context.isAllSettled result)
          state.resultsMap))) := by
  unfold processResult
  dsimp only
  rw [bind_run get_run, h]
  dsimp only
  have hdelete := deleteVowState_run (w := { w with
    idToNonStorableResults := w.idToNonStorableResults.insert context.id
      (heldWith isStorable context.index (wrapResult context.isAllSettled result)
        (w.nonStorable context.id)) }) (Table.has_of_lookup h)
  rw [if_neg hkeep, bind_run (keepResult_run hnew), if_neg hlast, bind_run get_run]
  dsimp only
  rw [bind_run hdelete]
  rw [Table.lookup_insert, if_pos rfl, Table.erase_insert_self]
  unfold completion CombineWorld.concluded
  dsimp only [Option.getD_some]
  split
  · rfl
  · rfl

end Process

section Invariant

variable (isStorable : Entry ν → Bool) (isRetryableReason : ν → Option κ → Option κ)
  (errors : CombineErrors ν)

/-- The watchers of a combined vow, one for each specimen. -/
def Created.contexts (c : Created) : List WatcherContext :=
  (List.range c.numResults).map fun index => ⟨c.id, index, c.numResults, c.isAllSettled⟩

def CombineWorld.receivedFor (w : CombineWorld ν κ) (id : ℕ) : List (Received ν) :=
  w.received.filter fun r => r.context.id = id

def CombineWorld.outcomes (w : CombineWorld ν κ) (vow : ℕ) : List (ℕ × Combined ν) :=
  w.resolutions.filter fun resolution => resolution.1 = vow

/-- The results that can be stored are in the durable map, and the others in memory as long as
they are there. -/
structure Awaiting (w : CombineWorld ν κ) (c : Created) (state : VowState ν) : Prop where
  resolver : state.resolver = c.vow
  remaining : state.remaining + (w.receivedFor c.id).length = c.numResults
  waiting : 0 < state.remaining
  unrejected : c.isAllSettled = false →
    ∀ r ∈ w.receivedFor c.id, r.result.isRejected = false
  stored : ∀ k entry, state.resultsMap.lookup k = some entry ↔
    ∃ r ∈ w.receivedFor c.id, r.context.index = k ∧
      entry = wrapResult c.isAllSettled r.result ∧
      isStorable (wrapResult c.isAllSettled r.result) = true
  held : ∀ k entry, (w.nonStorable c.id).lookup k = some entry ↔
    ∃ r ∈ w.receivedFor c.id, r.context.index = k ∧
      entry = wrapResult c.isAllSettled r.result ∧
      (isStorable (wrapResult c.isAllSettled r.result) = false ∧ r.incarnation = w.incarnation)
  unresolved : w.outcomes c.vow = []

/-- A result that could not be stored, received before an upgrade that the others came after. -/
def Lost (c : Created) (incarnation : ℕ) (r : Received ν) : Prop :=
  isStorable (wrapResult c.isAllSettled r.result) = false ∧ r.incarnation < incarnation

/-- Each result is at its own index, unless it was lost. -/
structure InPlace (c : Created) (received : List (Received ν)) (incarnation : ℕ)
    (results : List (Option (Entry ν))) : Prop where
  length : results.length = c.numResults
  every : ∀ k < c.numResults, ∃ r ∈ received, r.context.index = k
  entries : ∀ r ∈ received,
    results[r.context.index]? = some (some (wrapResult c.isAllSettled r.result)) ∨
      (c.isAllSettled = true ∧ Lost isStorable c incarnation r ∧
        results[r.context.index]? = some (some (.record (.rejected errors.resultLost))))

/-- What a combined vow settles with, given its results in the order in which they came. -/
inductive CombinedAs (c : Created) (received : List (Received ν)) : Combined ν → Prop where
  | rejected {before after : List (Received ν)} {r : Received ν}
      (hall : c.isAllSettled = false) (hreceived : received = before ++ r :: after)
      (hrejected : r.result.isRejected = true)
      (hfirst : ∀ earlier ∈ before, earlier.result.isRejected = false) :
      CombinedAs c received (.rejected r.result.value)
  | lost {numLost incarnation : ℕ} {r last : Received ν} (hall : c.isAllSettled = false)
      (hlength : received.length = c.numResults)
      (hfulfilled : ∀ r ∈ received, r.result.isRejected = false)
      (hlast : last ∈ received) (hincarnation : last.incarnation = incarnation)
      (hr : r ∈ received) (hlost : Lost isStorable c incarnation r) :
      CombinedAs c received (.rejected (errors.resultsLost numLost))
  | fulfilled {incarnation : ℕ} {results : List (Option (Entry ν))} {last : Received ν}
      (hlength : received.length = c.numResults)
      (hfulfilled : c.isAllSettled = false → ∀ r ∈ received, r.result.isRejected = false)
      (hlast : last ∈ received) (hincarnation : last.incarnation = incarnation)
      (hresults : InPlace isStorable errors c received incarnation results) :
      CombinedAs c received (.fulfilled results)

structure Concluded (w : CombineWorld ν κ) (c : Created) : Prop where
  gone : w.idToNonStorableResults.lookup c.id = none
  outcome : ∃ outcome, w.outcomes c.vow = [(c.vow, outcome)] ∧
    CombinedAs isStorable errors c (w.receivedFor c.id) outcome

structure CreatedInv (w : CombineWorld ν κ) (c : Created) : Prop where
  vow : c.vow < w.kits
  empty : c.numResults = 0 → w.outcomes c.vow = [(c.vow, .fulfilled [])]
  id : 0 < c.numResults → c.id < w.nextId
  specimens : 0 < c.numResults →
    ((w.watchers.map PromiseWatcher.context).filter fun x => x.id = c.id) = c.contexts
  awaiting : ∀ state, 0 < c.numResults → w.idToVowState.lookup c.id = some state →
    Awaiting isStorable w c state
  concluded : 0 < c.numResults → w.idToVowState.lookup c.id = none →
    Concluded isStorable errors w c

/-- The result is that of the specimen's own chain. -/
def Own (watchers : List (PromiseWatcher ν κ)) (context : WatcherContext) (result : Result ν) :
    Prop :=
  ∃ watcher ∈ watchers, watcher.context = context ∧ watcher.hasResolver = false ∧
    Unwrapped isRetryableReason errors.cycleDetected watcher.answers result

def CombineWorld.places (w : CombineWorld ν κ) : List WatcherContext :=
  (w.watchers.filter PromiseWatcher.hasResolver).map PromiseWatcher.context ++
    (w.calls.map Prod.fst ++ w.received.map Received.context)

/-- Every watcher is at work, or its result is to be processed, or it has been received. -/
structure WatchingInv (w : CombineWorld ν κ) : Prop where
  watchers : ∀ watcher ∈ w.watchers, WatcherInv isRetryableReason errors watcher
  places : w.places.Perm (w.watchers.map PromiseWatcher.context)
  calls : ∀ call ∈ w.calls, Own isRetryableReason errors w.watchers call.1 call.2
  received : ∀ r ∈ w.received, Own isRetryableReason errors w.watchers r.context r.result

structure CombineInv (w : CombineWorld ν κ) : Prop where
  watching : WatchingInv isRetryableReason errors w
  created : ∀ c ∈ w.created, CreatedInv isStorable errors w c
  vows : (w.created.map Created.vow).Nodup
  ids : ∀ c ∈ w.created, ∀ d ∈ w.created, 0 < c.numResults → 0 < d.numResults →
    c.id = d.id → c = d
  belongs : ∀ watcher ∈ w.watchers, ∃ c ∈ w.created, watcher.context ∈ c.contexts
  fresh : ∀ id, w.nextId ≤ id →
    w.idToVowState.lookup id = none ∧ w.idToNonStorableResults.lookup id = none
  resolutions : ∀ resolution ∈ w.resolutions, resolution.1 < w.kits
  incarnations : ∀ r ∈ w.received, r.incarnation ≤ w.incarnation
  failures : w.failures = []

end Invariant

section Watching

variable {isStorable : Entry ν → Bool} {isRetryableReason : ν → Option κ → Option κ}
  {errors : CombineErrors ν} {w : CombineWorld ν κ}

theorem CombineInv.watch (h : CombineInv isStorable isRetryableReason errors w)
    {watchers : List (PromiseWatcher ν κ)} {calls : List (WatcherContext × Result ν)}
    (hcontexts : watchers.map PromiseWatcher.context = w.watchers.map PromiseWatcher.context)
    (hwatching : WatchingInv isRetryableReason errors { w with watchers, calls }) :
    CombineInv isStorable isRetryableReason errors { w with watchers, calls } where
  watching := hwatching
  created c hc := by
    have hinv := h.created c hc
    exact
      { vow := hinv.vow
        empty := hinv.empty
        id := hinv.id
        specimens := fun hpos => by
          rw [hcontexts]
          exact hinv.specimens hpos
        awaiting := fun state hpos hstate => { hinv.awaiting state hpos hstate with }
        concluded := fun hpos hnone => { hinv.concluded hpos hnone with } }
  vows := h.vows
  ids := h.ids
  belongs watcher hmem := by
    have hcontext : watcher.context ∈ w.watchers.map PromiseWatcher.context := by
      rw [← hcontexts]
      exact List.mem_map_of_mem hmem
    obtain ⟨watcher', hmem', heq⟩ := List.mem_map.mp hcontext
    rw [← heq]
    exact h.belongs watcher' hmem'
  fresh := h.fresh
  resolutions := h.resolutions
  incarnations := h.incarnations
  failures := h.failures

variable {watcher watcher' : PromiseWatcher ν κ} {i : ℕ}

theorem Own.set {context : WatcherContext} {result : Result ν}
    (h : Own isRetryableReason errors w.watchers context result)
    (hi : w.watchers[i]? = some watcher) (hresolver : watcher.hasResolver = true)
    (watcher' : PromiseWatcher ν κ) :
    Own isRetryableReason errors (w.watchers.set i watcher') context result := by
  obtain ⟨other, hmem, hcontext, hsettled, hunwrapped⟩ := h
  refine ⟨other, ?_, hcontext, hsettled, hunwrapped⟩
  obtain ⟨j, hj⟩ := List.getElem?_of_mem hmem
  apply List.mem_of_getElem? (i := j)
  rw [List.getElem?_set_ne, hj]
  rintro rfl
  cases hi.symm.trans hj
  cases hresolver.symm.trans hsettled

theorem WatchingInv.set (h : WatchingInv isRetryableReason errors w)
    (hi : w.watchers[i]? = some watcher) (hresolver : watcher.hasResolver = true)
    {calls : List (WatcherContext × Result ν)}
    (hcontext : watcher'.context = watcher.context)
    (hinv : WatcherInv isRetryableReason errors watcher')
    (hcalls : (watcher'.hasResolver = true ∧ calls = w.calls) ∨
      (watcher'.hasResolver = false ∧ ∃ result, calls = w.calls ++ [(watcher.context, result)] ∧
        Unwrapped isRetryableReason errors.cycleDetected watcher'.answers result)) :
    WatchingInv isRetryableReason errors
      { w with watchers := w.watchers.set i watcher', calls } where
  watchers x hx := by
    rcases List.mem_or_eq_of_mem_set hx with hmem | heq
    · exact h.watchers x hmem
    · rw [heq]
      exact hinv
  places := by
    have hbefore := ((perm_eraseIdx hi).filter PromiseWatcher.hasResolver).map
      PromiseWatcher.context
    have hafter := ((perm_set hi watcher').filter PromiseWatcher.hasResolver).map
      PromiseWatcher.context
    rw [List.filter_cons_of_pos hresolver, List.map_cons] at hbefore
    have hplaces := h.places
    unfold CombineWorld.places at hplaces ⊢
    rw [map_set hi hcontext]
    apply List.Perm.trans _ hplaces
    apply List.perm_iff_count.mpr
    intro a
    have hcountBefore := List.perm_iff_count.mp hbefore a
    have hcountAfter := List.perm_iff_count.mp hafter a
    rcases hcalls with ⟨hlive, hcalls⟩ | ⟨hsettled, result, hcalls, -⟩
    · rw [List.filter_cons_of_pos hlive, List.map_cons, hcontext] at hcountAfter
      dsimp only
      rw [hcalls]
      simp only [List.count_append]
      omega
    · rw [List.filter_cons_of_neg (by rw [hsettled]; exact Bool.false_ne_true)] at hcountAfter
      dsimp only
      rw [hcalls]
      simp only [List.map_append, List.map_cons, List.map_nil, List.count_append,
        List.count_cons, List.count_nil] at hcountBefore ⊢
      omega
  calls call hmem := by
    rcases hcalls with ⟨-, hcalls⟩ | ⟨hsettled, result, hcalls, hunwrapped⟩
    · rw [hcalls] at hmem
      exact (h.calls call hmem).set hi hresolver watcher'
    · rw [hcalls] at hmem
      rcases List.mem_append.mp hmem with hmem | hmem
      · exact (h.calls call hmem).set hi hresolver watcher'
      · cases List.mem_singleton.mp hmem
        have hset : watcher' ∈ w.watchers.set i watcher' :=
          List.mem_set (List.getElem?_eq_some_iff.mp hi).1 _
        exact ⟨watcher', hset, hcontext, hsettled, hunwrapped⟩
  received r hmem := (h.received r hmem).set hi hresolver watcher'

theorem CombineInv.settles (h : CombineInv isStorable isRetryableReason errors w)
    (hi : w.watchers[i]? = some watcher) (hpending : watcher.promise = .pending)
    (answer : Answer ν) :
    CombineInv isStorable isRetryableReason errors
      { w with watchers := w.watchers.set i { watcher with promise := .settled answer } } := by
  have hinv := h.watching.watchers watcher (List.mem_of_getElem? hi)
  have hresolver : watcher.hasResolver = true := by
    apply hinv.live.mpr
    rw [hpending]
    exact nofun
  refine h.watch (map_set hi rfl) (h.watching.set hi hresolver rfl ?_ (.inl ⟨hresolver, rfl⟩))
  exact ⟨⟨fun _ => nofun, fun _ => hresolver⟩, hinv.unwrapping, hinv.seen⟩

theorem CombineInv.reacts (h : CombineInv isStorable isRetryableReason errors w)
    (hi : w.watchers[i]? = some watcher) {answer : Answer ν}
    (hsettled : watcher.promise = .settled answer) :
    CombineInv isStorable isRetryableReason errors
      (react isRetryableReason errors i watcher answer w) := by
  have hinv := h.watching.watchers watcher (List.mem_of_getElem? hi)
  have hresolver : watcher.hasResolver = true := by
    apply hinv.live.mpr
    rw [hsettled]
    exact nofun
  obtain ⟨watcher', result, hcall, hreacts⟩ := call_reacts hinv hresolver answer
  unfold PromiseWatcher.asked at hcall
  unfold react
  dsimp only
  rw [hcall]
  have hlive := hreacts.resolver
  cases result with
  | none =>
    exact h.watch (map_set hi hreacts.context)
      (h.watching.set hi hresolver hreacts.context hreacts.inv (.inl ⟨hlive, rfl⟩))
  | some result =>
    refine h.watch (map_set hi hreacts.context)
      (h.watching.set hi hresolver hreacts.context hreacts.inv (.inr ⟨hlive, result, ?_, ?_⟩))
    · rw [hreacts.context]
    · exact hreacts.unwrapped result rfl

end Watching

section Processed

variable {isStorable : Entry ν → Bool} {isRetryableReason : ν → Option κ → Option κ}
  {errors : CombineErrors ν} {w t : CombineWorld ν κ} {c d : Created}

theorem mem_contexts {context : WatcherContext} (h : context ∈ c.contexts) :
    context.index < c.numResults ∧ context.id = c.id ∧ context.numResults = c.numResults ∧
      context.isAllSettled = c.isAllSettled := by
  obtain ⟨index, hindex, rfl⟩ := List.mem_map.mp h
  exact ⟨List.mem_range.mp hindex, rfl, rfl, rfl⟩

theorem contexts_nodup (c : Created) : (c.contexts.map WatcherContext.index).Nodup := by
  unfold Created.contexts
  rw [List.map_map]
  exact (List.map_id _).symm ▸ List.nodup_range

theorem contexts_length (c : Created) : c.contexts.length = c.numResults := by
  unfold Created.contexts
  rw [List.length_map, List.length_range]

theorem CombineInv.received_perm (h : CombineInv isStorable isRetryableReason errors w)
    (hc : c ∈ w.created) (hpos : 0 < c.numResults) : c.contexts.Perm
      (((w.watchers.filter PromiseWatcher.hasResolver).map PromiseWatcher.context ++
          w.calls.map Prod.fst).filter (fun x => x.id = c.id) ++
        (w.receivedFor c.id).map Received.context) := by
  have hperm := h.watching.places.filter fun x => decide (x.id = c.id)
  rw [(h.created c hc).specimens hpos] at hperm
  unfold CombineWorld.places at hperm
  rw [← List.append_assoc, List.filter_append, List.filter_map] at hperm
  exact hperm.symm

theorem CombineInv.received_lt (h : CombineInv isStorable isRetryableReason errors w)
    (hc : c ∈ w.created) (hpos : 0 < c.numResults) {i : ℕ} {context : WatcherContext}
    {result : Result ν} (hi : w.calls[i]? = some (context, result)) (hid : context.id = c.id) :
    (w.receivedFor c.id).length < c.numResults ∧
      ∀ r ∈ w.receivedFor c.id, r.context.index ≠ context.index := by
  have hperm := h.received_perm hc hpos
  have hcall : context ∈ ((w.watchers.filter PromiseWatcher.hasResolver).map
      PromiseWatcher.context ++ w.calls.map Prod.fst).filter (fun x => x.id = c.id) := by
    apply List.mem_filter.mpr
    refine ⟨List.mem_append_right _ ?_, decide_eq_true hid⟩
    exact List.mem_map_of_mem (List.mem_of_getElem? hi)
  have hlength := hperm.length_eq
  rw [contexts_length, List.length_append, List.length_map] at hlength
  refine ⟨?_, fun r hr heq => ?_⟩
  · have hone := List.length_pos_of_mem hcall
    omega
  · have hnodup := (hperm.map WatcherContext.index).nodup_iff.mp (contexts_nodup c)
    rw [List.map_append] at hnodup
    apply (List.nodup_append.mp hnodup).2.2 context.index (List.mem_map_of_mem hcall)
      r.context.index
    · exact List.mem_map_of_mem (List.mem_map_of_mem hr)
    · exact heq.symm

theorem receivedFor_self {r : Received ν} (h : t.received = w.received ++ [r]) {id : ℕ}
    (hid : r.context.id = id) : t.receivedFor id = w.receivedFor id ++ [r] := by
  unfold CombineWorld.receivedFor
  rw [h, List.filter_append]
  simp [hid]

theorem receivedFor_other {r : Received ν} (h : t.received = w.received ++ [r]) {id : ℕ}
    (hid : r.context.id ≠ id) : t.receivedFor id = w.receivedFor id := by
  unfold CombineWorld.receivedFor
  rw [h, List.filter_append]
  simp [hid]

theorem CreatedInv.frame (h : CreatedInv isStorable errors w d) (hkits : w.kits ≤ t.kits)
    (hnextId : w.nextId ≤ t.nextId)
    (hspecimens : 0 < d.numResults →
      ((t.watchers.map PromiseWatcher.context).filter fun x => x.id = d.id) =
        (w.watchers.map PromiseWatcher.context).filter fun x => x.id = d.id)
    (hincarnation : t.incarnation = w.incarnation)
    (houtcomes : t.outcomes d.vow = w.outcomes d.vow)
    (hstate : 0 < d.numResults → t.idToVowState.lookup d.id = w.idToVowState.lookup d.id ∧
      t.idToNonStorableResults.lookup d.id = w.idToNonStorableResults.lookup d.id ∧
      t.receivedFor d.id = w.receivedFor d.id) : CreatedInv isStorable errors t d where
  vow := h.vow.trans_le hkits
  empty hzero := by
    rw [houtcomes]
    exact h.empty hzero
  id hpos := (h.id hpos).trans_le hnextId
  specimens hpos := (hspecimens hpos).trans (h.specimens hpos)
  awaiting state hpos hlookup := by
    obtain ⟨hsame, hheld, hreceived⟩ := hstate hpos
    have hawaiting := h.awaiting state hpos (hsame ▸ hlookup)
    have hnonStorable : t.nonStorable d.id = w.nonStorable d.id := by
      unfold CombineWorld.nonStorable
      rw [hheld]
    constructor
    case resolver => exact hawaiting.resolver
    case remaining =>
      rw [hreceived]
      exact hawaiting.remaining
    case waiting => exact hawaiting.waiting
    case unrejected =>
      rw [hreceived]
      exact hawaiting.unrejected
    case stored =>
      rw [hreceived]
      exact hawaiting.stored
    case held =>
      rw [hreceived, hnonStorable, hincarnation]
      exact hawaiting.held
    case unresolved => exact houtcomes.trans hawaiting.unresolved
  concluded hpos hlookup := by
    obtain ⟨hsame, hheld, hreceived⟩ := hstate hpos
    have hconcluded := h.concluded hpos (hsame ▸ hlookup)
    refine ⟨hheld.trans hconcluded.gone, ?_⟩
    rw [houtcomes, hreceived]
    exact hconcluded.outcome

/-- A result of one vow is taken from the calls and received. -/
structure Processes (w t : CombineWorld ν κ) (c : Created) (i : ℕ) (r : Received ν) : Prop where
  watchers : t.watchers = w.watchers
  created : t.created = w.created
  kits : t.kits = w.kits
  nextId : t.nextId = w.nextId
  incarnation : t.incarnation = w.incarnation
  failures : t.failures = w.failures
  calls : t.calls = w.calls.eraseIdx i
  received : t.received = w.received ++ [r]
  states : ∀ id, id ≠ c.id → t.idToVowState.lookup id = w.idToVowState.lookup id ∧
    t.idToNonStorableResults.lookup id = w.idToNonStorableResults.lookup id
  resolutions : t.resolutions = w.resolutions ∨
    ∃ outcome, t.resolutions = w.resolutions ++ [(c.vow, outcome)]

theorem CombineInv.processed (h : CombineInv isStorable isRetryableReason errors w)
    {i : ℕ} {r : Received ν} (hc : c ∈ w.created) (hpos : 0 < c.numResults)
    (hi : w.calls[i]? = some (r.context, r.result)) (hid : r.context.id = c.id)
    (hr : r.incarnation = w.incarnation) (hstep : Processes w t c i r)
    (hself : CreatedInv isStorable errors t c) :
    CombineInv isStorable isRetryableReason errors t where
  watching :=
    { watchers := by
        rw [hstep.watchers]
        exact h.watching.watchers
      places := by
        have hperm := (perm_eraseIdx hi).map Prod.fst
        apply List.Perm.trans _ (hstep.watchers ▸ h.watching.places)
        apply List.perm_iff_count.mpr
        intro a
        have hcount := List.perm_iff_count.mp hperm a
        unfold CombineWorld.places
        rw [hstep.watchers, hstep.calls, hstep.received]
        simp only [List.map_append, List.map_cons, List.map_nil, List.count_append,
          List.count_cons, List.count_nil] at hcount ⊢
        omega
      calls := by
        intro call hmem
        rw [hstep.calls] at hmem
        rw [hstep.watchers]
        exact h.watching.calls call (List.mem_of_mem_eraseIdx hmem)
      received := by
        intro r' hmem
        rw [hstep.received] at hmem
        rw [hstep.watchers]
        rcases List.mem_append.mp hmem with hmem | hmem
        · exact h.watching.received r' hmem
        · rw [List.mem_singleton.mp hmem]
          exact h.watching.calls _ (List.mem_of_getElem? hi) }
  created d hd := by
    rw [hstep.created] at hd
    by_cases heq : d = c
    · rw [heq]
      exact hself
    · have hvow : d.vow ≠ c.vow := by
        intro hsame
        exact heq (List.inj_on_of_nodup_map h.vows hd hc hsame)
      apply (h.created d hd).frame hstep.kits.ge hstep.nextId.ge _ hstep.incarnation
      · unfold CombineWorld.outcomes
        rcases hstep.resolutions with hsame | ⟨outcome, hmore⟩
        · rw [hsame]
        · rw [hmore, filter_append_other hvow]
      · intro hdpos
        have hother : d.id ≠ c.id := fun hsame => heq (h.ids d hd c hc hdpos hpos hsame)
        obtain ⟨hstate, hheld⟩ := hstep.states d.id hother
        refine ⟨hstate, hheld, ?_⟩
        apply receivedFor_other hstep.received
        rw [hid]
        exact hother.symm
      · intro _
        rw [hstep.watchers]
  vows := by
    rw [hstep.created]
    exact h.vows
  ids := by
    rw [hstep.created]
    exact h.ids
  belongs := by
    rw [hstep.watchers, hstep.created]
    exact h.belongs
  fresh id hle := by
    rw [hstep.nextId] at hle
    have hlt := (h.created c hc).id hpos
    obtain ⟨hstate, hheld⟩ := hstep.states id (by omega)
    rw [hstate, hheld]
    exact h.fresh id hle
  resolutions resolution hmem := by
    rw [hstep.kits]
    rcases hstep.resolutions with hsame | ⟨outcome, hmore⟩
    · rw [hsame] at hmem
      exact h.resolutions resolution hmem
    · rw [hmore] at hmem
      rcases List.mem_append.mp hmem with hmem | hmem
      · exact h.resolutions resolution hmem
      · rw [List.mem_singleton.mp hmem]
        exact (h.created c hc).vow
  incarnations r' hmem := by
    rw [hstep.received] at hmem
    rw [hstep.incarnation]
    rcases List.mem_append.mp hmem with hmem | hmem
    · exact h.incarnations r' hmem
    · rw [List.mem_singleton.mp hmem, hr]
  failures := by
    rw [hstep.failures]
    exact h.failures

theorem CombinedAs.append {received : List (Received ν)} {outcome : Combined ν}
    (h : CombinedAs isStorable errors c received outcome) (hlt : received.length < c.numResults)
    (r : Received ν) : CombinedAs isStorable errors c (received ++ [r]) outcome := by
  cases h with
  | @rejected before after first hall hreceived hrejected hfirst =>
    have hmore : received ++ [r] = before ++ first :: (after ++ [r]) := by
      rw [hreceived, List.append_assoc]
      rfl
    exact .rejected hall hmore hrejected hfirst
  | lost _ hlength => omega
  | fulfilled hlength => omega

theorem CombineInv.processes_settled (h : CombineInv isStorable isRetryableReason errors w)
    {i : ℕ} {r : Received ν} (hc : c ∈ w.created) (hpos : 0 < c.numResults)
    (hi : w.calls[i]? = some (r.context, r.result)) (hid : r.context.id = c.id)
    (hr : r.incarnation = w.incarnation) (hnone : w.idToVowState.lookup c.id = none) :
    CombineInv isStorable isRetryableReason errors
      { w with calls := w.calls.eraseIdx i, received := w.received ++ [r] } := by
  have hinv := h.created c hc
  obtain ⟨hlt, -⟩ := h.received_lt hc hpos hi hid
  let t : CombineWorld ν κ := { w with
    calls := w.calls.eraseIdx i, received := w.received ++ [r] }
  have hreceived : t.receivedFor c.id = w.receivedFor c.id ++ [r] := receivedFor_self rfl hid
  apply h.processed (t := t) hc hpos hi hid hr
  · exact ⟨rfl, rfl, rfl, rfl, rfl, rfl, rfl, rfl, fun _ _ => ⟨rfl, rfl⟩, .inl rfl⟩
  · constructor
    case vow => exact hinv.vow
    case empty => exact hinv.empty
    case id => exact hinv.id
    case specimens => exact hinv.specimens
    case awaiting => exact fun state _ hstate => nomatch hnone.symm.trans hstate
    case concluded =>
      intro _ _
      obtain ⟨hgone, outcome, houtcome, hcombined⟩ := hinv.concluded hpos hnone
      refine ⟨hgone, outcome, houtcome, ?_⟩
      rw [hreceived]
      exact hcombined.append hlt r

theorem CombineInv.processes_concluded (h : CombineInv isStorable isRetryableReason errors w)
    {i : ℕ} {r : Received ν} {state : VowState ν} {outcome : Combined ν} (hc : c ∈ w.created)
    (hpos : 0 < c.numResults) (hi : w.calls[i]? = some (r.context, r.result))
    (hid : r.context.id = c.id) (hr : r.incarnation = w.incarnation)
    (hstate : w.idToVowState.lookup c.id = some state)
    (hcombined : CombinedAs isStorable errors c (w.receivedFor c.id ++ [r]) outcome) :
    CombineInv isStorable isRetryableReason errors
      (({ w with calls := w.calls.eraseIdx i, received := w.received ++ [r] } :
        CombineWorld ν κ).concluded c.id c.vow outcome) := by
  have hinv := h.created c hc
  let t := ({ w with calls := w.calls.eraseIdx i, received := w.received ++ [r] } :
    CombineWorld ν κ).concluded c.id c.vow outcome
  have hreceived : t.receivedFor c.id = w.receivedFor c.id ++ [r] := receivedFor_self rfl hid
  have hnone : t.idToVowState.lookup c.id = none := by
    unfold t CombineWorld.concluded
    rw [Table.lookup_erase, if_pos rfl]
  apply h.processed (t := t) hc hpos hi hid hr
  · refine ⟨rfl, rfl, rfl, rfl, rfl, rfl, rfl, rfl, fun id hne => ?_, .inr ⟨outcome, rfl⟩⟩
    unfold t CombineWorld.concluded
    dsimp only
    rw [Table.lookup_erase, Table.lookup_erase, if_neg hne, if_neg hne]
    exact ⟨rfl, rfl⟩
  · constructor
    case vow => exact hinv.vow
    case empty => exact fun hzero => absurd hzero (by omega)
    case id => exact hinv.id
    case specimens => exact hinv.specimens
    case awaiting => exact fun state _ hstate => nomatch hnone.symm.trans hstate
    case concluded =>
      intro _ _
      refine ⟨?_, outcome, ?_, ?_⟩
      · unfold t CombineWorld.concluded
        rw [Table.lookup_erase, if_pos rfl]
      · have hbefore := (hinv.awaiting state hpos hstate).unresolved
        unfold CombineWorld.outcomes at hbefore
        unfold t CombineWorld.concluded CombineWorld.outcomes
        rw [filter_append_self, hbefore]
        rfl
      · rw [hreceived]
        exact hcombined

theorem lookup_append {received : List (Received ν)} {r : Received ν}
    {entry : Received ν → Entry ν} {P : Received ν → Prop} {m m' : Table ℕ (Entry ν)}
    (hm : ∀ k e, m.lookup k = some e ↔ ∃ r ∈ received, r.context.index = k ∧ e = entry r ∧ P r)
    (hnew : ∀ earlier ∈ received, earlier.context.index ≠ r.context.index)
    (hm' : (P r ∧ m' = m.insert r.context.index (entry r)) ∨ (¬ P r ∧ m' = m)) (k : ℕ)
    (e : Entry ν) :
    m'.lookup k = some e ↔
      ∃ r' ∈ received ++ [r], r'.context.index = k ∧ e = entry r' ∧ P r' := by
  have hsplit : (∃ r' ∈ received ++ [r], r'.context.index = k ∧ e = entry r' ∧ P r') ↔
      (∃ r' ∈ received, r'.context.index = k ∧ e = entry r' ∧ P r') ∨
        (r.context.index = k ∧ e = entry r ∧ P r) := by
    simp only [List.mem_append, List.mem_singleton, or_and_right, exists_or, exists_eq_left]
  rw [hsplit, ← hm]
  rcases hm' with ⟨hP, heq⟩ | ⟨hP, heq⟩
  · rw [heq, Table.lookup_insert]
    by_cases hk : k = r.context.index
    · have hnone : m.lookup k ≠ some e := by
        intro hsome
        obtain ⟨r', hmem, hindex, -⟩ := (hm k e).mp hsome
        exact hnew r' hmem (hindex.trans hk)
      rw [if_pos hk]
      constructor
      · intro hsome
        exact .inr ⟨hk.symm, (Option.some_inj.mp hsome).symm, hP⟩
      · rintro (hsome | ⟨-, he, -⟩)
        · exact absurd hsome hnone
        · rw [he]
    · rw [if_neg hk]
      constructor
      · exact .inl
      · rintro (hsome | ⟨hindex, -⟩)
        · exact hsome
        · exact absurd hindex.symm hk
  · rw [heq]
    constructor
    · exact .inl
    · rintro (hsome | ⟨-, -, hr⟩)
      · exact hsome
      · exact absurd hr hP

theorem Awaiting.maps {state : VowState ν} (h : Awaiting isStorable w c state) {r : Received ν}
    (hr : r.incarnation = w.incarnation)
    (hnew : ∀ earlier ∈ w.receivedFor c.id, earlier.context.index ≠ r.context.index) :
    (∀ k entry, (storedWith isStorable r.context.index (wrapResult c.isAllSettled r.result)
        state.resultsMap).lookup k = some entry ↔
      ∃ r' ∈ w.receivedFor c.id ++ [r], r'.context.index = k ∧
        entry = wrapResult c.isAllSettled r'.result ∧
        isStorable (wrapResult c.isAllSettled r'.result) = true) ∧
    (∀ k entry, (heldWith isStorable r.context.index (wrapResult c.isAllSettled r.result)
        (w.nonStorable c.id)).lookup k = some entry ↔
      ∃ r' ∈ w.receivedFor c.id ++ [r], r'.context.index = k ∧
        entry = wrapResult c.isAllSettled r'.result ∧
        (isStorable (wrapResult c.isAllSettled r'.result) = false ∧
          r'.incarnation = w.incarnation)) := by
  refine ⟨lookup_append h.stored hnew ?_, lookup_append h.held hnew ?_⟩
  · unfold storedWith
    cases hstorable : isStorable (wrapResult c.isAllSettled r.result) with
    | true => exact .inl ⟨rfl, rfl⟩
    | false => exact .inr ⟨nofun, rfl⟩
  · unfold heldWith
    cases hstorable : isStorable (wrapResult c.isAllSettled r.result) with
    | true => exact .inr ⟨fun hboth => (nomatch hboth.1), rfl⟩
    | false => exact .inl ⟨⟨rfl, hr⟩, rfl⟩

theorem Awaiting.new_index {state : VowState ν} (h : Awaiting isStorable w c state)
    {r : Received ν}
    (hnew : ∀ earlier ∈ w.receivedFor c.id, earlier.context.index ≠ r.context.index) :
    state.resultsMap.has r.context.index = false := by
  unfold Table.has
  cases hlookup : state.resultsMap.lookup r.context.index with
  | none => rfl
  | some entry =>
    obtain ⟨r', hmem, hindex, -⟩ := (h.stored _ _).mp hlookup
    exact absurd hindex (hnew r' hmem)

theorem CombineInv.processes_kept (h : CombineInv isStorable isRetryableReason errors w)
    {i : ℕ} {r : Received ν} {state : VowState ν} (hc : c ∈ w.created)
    (hcontext : r.context ∈ c.contexts) (hi : w.calls[i]? = some (r.context, r.result))
    (hr : r.incarnation = w.incarnation) (hstate : w.idToVowState.lookup c.id = some state)
    (hkeep : ¬ (c.isAllSettled = false ∧ r.result.isRejected = true))
    (hmore : 1 < state.remaining) :
    CombineInv isStorable isRetryableReason errors
      (({ w with calls := w.calls.eraseIdx i, received := w.received ++ [r] } :
        CombineWorld ν κ).kept isStorable r.context state
          (wrapResult c.isAllSettled r.result)) := by
  obtain ⟨hindex, hid, -, hall⟩ := mem_contexts hcontext
  have hpos : 0 < c.numResults := by omega
  have hinv := h.created c hc
  have hawaiting := hinv.awaiting state hpos hstate
  obtain ⟨hlt, hnew⟩ := h.received_lt hc hpos hi hid
  obtain ⟨hstored, hheld⟩ := hawaiting.maps hr hnew
  let t := ({ w with calls := w.calls.eraseIdx i, received := w.received ++ [r] } :
    CombineWorld ν κ).kept isStorable r.context state (wrapResult c.isAllSettled r.result)
  have hreceived : t.receivedFor c.id = w.receivedFor c.id ++ [r] := receivedFor_self rfl hid
  have hlookup : t.idToVowState.lookup c.id = some
      { resolver := state.resolver
        remaining := state.remaining - 1
        resultsMap := storedWith isStorable r.context.index
          (wrapResult c.isAllSettled r.result) state.resultsMap
        isAllSettled := c.isAllSettled } := by
    unfold t CombineWorld.kept
    dsimp only
    rw [hid, hall, Table.lookup_insert, if_pos rfl]
  have hnonStorable : t.nonStorable c.id = heldWith isStorable r.context.index
      (wrapResult c.isAllSettled r.result) (w.nonStorable c.id) := by
    unfold t CombineWorld.kept CombineWorld.nonStorable
    dsimp only
    rw [hid, Table.lookup_insert, if_pos rfl]
    rfl
  apply h.processed (t := t) hc hpos hi hid hr
  · refine ⟨rfl, rfl, rfl, rfl, rfl, rfl, rfl, rfl, fun id hne => ?_, .inl rfl⟩
    unfold t CombineWorld.kept
    dsimp only
    rw [hid, Table.lookup_insert, Table.lookup_insert, if_neg hne, if_neg hne]
    exact ⟨rfl, rfl⟩
  · constructor
    case vow => exact hinv.vow
    case empty => exact hinv.empty
    case id => exact hinv.id
    case specimens => exact hinv.specimens
    case awaiting =>
      intro state' _ hstate'
      cases hlookup.symm.trans hstate'
      constructor
      case resolver => exact hawaiting.resolver
      case remaining =>
        have hbefore := hawaiting.remaining
        rw [hreceived, List.length_append, List.length_singleton]
        dsimp only
        omega
      case waiting => exact Nat.sub_pos_of_lt hmore
      case unrejected =>
        intro hallVows
        rw [hreceived, List.forall_mem_append]
        refine ⟨hawaiting.unrejected hallVows, fun r' hr' => ?_⟩
        rw [List.mem_singleton.mp hr']
        exact Bool.eq_false_iff.mpr fun hrejected => hkeep ⟨hallVows, hrejected⟩
      case stored =>
        rw [hreceived]
        exact hstored
      case held =>
        rw [hreceived, hnonStorable]
        exact hheld
      case unresolved => exact hawaiting.unresolved
    case concluded => exact fun _ hnone => nomatch hlookup.symm.trans hnone

theorem entry_cases {received : List (Received ν)} {incarnation : ℕ}
    {held stored : Table ℕ (Entry ν)}
    (hstored : ∀ k entry, stored.lookup k = some entry ↔
      ∃ r ∈ received, r.context.index = k ∧ entry = wrapResult c.isAllSettled r.result ∧
        isStorable (wrapResult c.isAllSettled r.result) = true)
    (hheld : ∀ k entry, held.lookup k = some entry ↔
      ∃ r ∈ received, r.context.index = k ∧ entry = wrapResult c.isAllSettled r.result ∧
        (isStorable (wrapResult c.isAllSettled r.result) = false ∧ r.incarnation = incarnation))
    (hindex : ∀ r ∈ received, ∀ r' ∈ received, r.context.index = r'.context.index → r = r')
    (hinc : ∀ r ∈ received, r.incarnation ≤ incarnation) {r : Received ν} (hr : r ∈ received) :
    held.lookup r.context.index = some (wrapResult c.isAllSettled r.result) ∨
      (held.lookup r.context.index = none ∧
        (stored.lookup r.context.index = some (wrapResult c.isAllSettled r.result) ∨
          (stored.lookup r.context.index = none ∧ Lost isStorable c incarnation r))) := by
  have hnotHeld : ¬ (isStorable (wrapResult c.isAllSettled r.result) = false ∧
      r.incarnation = incarnation) → held.lookup r.context.index = none := by
    intro hnot
    apply Option.eq_none_iff_forall_not_mem.mpr
    intro entry hentry
    obtain ⟨r', hr', hsame, -, hwhere⟩ := (hheld _ _).mp hentry
    rw [hindex r' hr' r hr hsame] at hwhere
    exact hnot hwhere
  cases hstorable : isStorable (wrapResult c.isAllSettled r.result) with
  | true =>
    right
    refine ⟨hnotHeld (by rw [hstorable]; exact fun hboth => (nomatch hboth.1)), .inl ?_⟩
    exact (hstored _ _).mpr ⟨r, hr, rfl, rfl, hstorable⟩
  | false =>
    by_cases hnow : r.incarnation = incarnation
    · exact .inl ((hheld _ _).mpr ⟨r, hr, rfl, rfl, hstorable, hnow⟩)
    · right
      refine ⟨hnotHeld fun hboth => hnow hboth.2, .inr ⟨?_, hstorable, ?_⟩⟩
      · apply Option.eq_none_iff_forall_not_mem.mpr
        intro entry hentry
        obtain ⟨r', hr', hsame, -, hyes⟩ := (hstored _ _).mp hentry
        rw [hindex r' hr' r hr hsame, hstorable] at hyes
        cases hyes
      · exact lt_of_le_of_ne (hinc r hr) hnow

theorem completion_combined {received : List (Received ν)} {context : WatcherContext}
    {held stored : Table ℕ (Entry ν)} {last : Received ν}
    (hcontext : context.numResults = c.numResults ∧ context.isAllSettled = c.isAllSettled)
    (hlength : received.length = c.numResults)
    (hfulfilled : c.isAllSettled = false → ∀ r ∈ received, r.result.isRejected = false)
    (hevery : ∀ k < c.numResults, ∃ r ∈ received, r.context.index = k)
    (hbound : ∀ r ∈ received, r.context.index < c.numResults) (hlast : last ∈ received)
    (hentry : ∀ r ∈ received,
      held.lookup r.context.index = some (wrapResult c.isAllSettled r.result) ∨
        (held.lookup r.context.index = none ∧
          (stored.lookup r.context.index = some (wrapResult c.isAllSettled r.result) ∨
            (stored.lookup r.context.index = none ∧ Lost isStorable c last.incarnation r)))) :
    CombinedAs isStorable errors c received (completion errors context held stored) := by
  unfold completion
  dsimp only
  rw [hcontext.1, hcontext.2]
  have hlost : ∀ k < c.numResults, held.lookup k = none → stored.lookup k = none →
      0 < countLost c.numResults held stored := by
    intro k hk hnone hnone'
    apply List.countP_pos_iff.mpr
    refine ⟨k, List.mem_range.mpr hk, ?_⟩
    unfold Table.has
    rw [hnone, hnone']
    rfl
  split
  case isTrue hboth =>
    obtain ⟨hsome, hall⟩ := hboth
    obtain ⟨k, hk, hnone⟩ := List.countP_pos_iff.mp hsome
    obtain ⟨r, hr, hindex⟩ := hevery k (List.mem_range.mp hk)
    rw [Bool.and_eq_true, Bool.not_eq_true', Bool.not_eq_true'] at hnone
    rw [← hindex] at hnone
    rcases hentry r hr with hheld | ⟨-, hstored | ⟨-, hgone⟩⟩
    · cases (Table.has_of_lookup hheld).symm.trans hnone.1
    · cases (Table.has_of_lookup hstored).symm.trans hnone.2
    · exact .lost hall hlength (hfulfilled hall) hlast rfl hr hgone
  case isFalse hnot =>
    refine .fulfilled hlength hfulfilled hlast rfl ⟨?_, hevery, ?_⟩
    · unfold extractResults
      rw [List.length_map, List.length_range]
    · intro r hr
      have hk := hbound r hr
      unfold extractResults
      rw [List.getElem?_map, List.getElem?_range hk, Option.map_some]
      rcases hentry r hr with hheld | ⟨hheld, hstored | ⟨hstored, hgone⟩⟩
      · rw [hheld]
        exact .inl rfl
      · rw [hheld, hstored]
        exact .inl rfl
      · rw [hheld, hstored]
        cases hall : c.isAllSettled with
        | false => exact absurd ⟨hlost _ hk hheld hstored, hall⟩ hnot
        | true => exact .inr ⟨rfl, hgone, rfl⟩

/-- All the results of a vow have been received: at each index one, and in this incarnation or
an earlier one. -/
theorem CombineInv.received_all (h : CombineInv isStorable isRetryableReason errors w)
    {i : ℕ} {r : Received ν} (hc : c ∈ w.created) (hcontext : r.context ∈ c.contexts)
    (hi : w.calls[i]? = some (r.context, r.result)) (hr : r.incarnation = w.incarnation)
    (hlength : (w.receivedFor c.id).length + 1 = c.numResults) :
    (∀ k < c.numResults, ∃ r' ∈ w.receivedFor c.id ++ [r], r'.context.index = k) ∧
      (∀ r' ∈ w.receivedFor c.id ++ [r], r'.context.index < c.numResults) ∧
      (∀ r₁ ∈ w.receivedFor c.id ++ [r], ∀ r₂ ∈ w.receivedFor c.id ++ [r],
        r₁.context.index = r₂.context.index → r₁ = r₂) ∧
      ∀ r' ∈ w.receivedFor c.id ++ [r], r'.incarnation ≤ w.incarnation := by
  obtain ⟨hindex, hid, -⟩ := mem_contexts hcontext
  have hpos : 0 < c.numResults := by omega
  obtain ⟨-, hnew⟩ := h.received_lt hc hpos hi hid
  have hperm := h.received_perm hc hpos
  have hindexes : ((w.receivedFor c.id ++ [r]).map fun r' => r'.context.index).Perm
      (List.range c.numResults) := by
    have hnodup := (hperm.map WatcherContext.index).nodup_iff.mp (contexts_nodup c)
    rw [List.map_append, List.map_map] at hnodup
    apply (List.subperm_of_subset _ _).perm_of_length_le
    · rw [List.length_range, List.length_map, List.length_append, List.length_singleton]
      omega
    · rw [List.map_append]
      apply List.nodup_append.mpr
      refine ⟨(List.nodup_append.mp hnodup).2.1, List.nodup_singleton _, ?_⟩
      intro k hk k' hk' heq
      obtain ⟨r', hr', rfl⟩ := List.mem_map.mp hk
      rw [List.map_singleton, List.mem_singleton] at hk'
      exact hnew r' hr' (heq.trans hk')
    · intro k hk
      obtain ⟨r', hr', rfl⟩ := List.mem_map.mp hk
      rcases List.mem_append.mp hr' with hr' | hr'
      · have hmem : r'.context ∈ c.contexts := by
          apply hperm.mem_iff.mpr
          exact List.mem_append_right _ (List.mem_map_of_mem hr')
        exact List.mem_range.mpr (mem_contexts hmem).1
      · rw [List.mem_singleton.mp hr']
        exact List.mem_range.mpr hindex
  refine ⟨fun k hk => ?_, fun r' hr' => ?_, fun r₁ h₁ r₂ h₂ heq => ?_, ?_⟩
  · exact List.mem_map.mp (hindexes.mem_iff.mpr (List.mem_range.mpr hk))
  · exact List.mem_range.mp (hindexes.mem_iff.mp (List.mem_map_of_mem hr'))
  · exact List.inj_on_of_nodup_map (hindexes.nodup_iff.mpr List.nodup_range) h₁ h₂ heq
  · rw [List.forall_mem_append]
    refine ⟨fun r' hr' => h.incarnations r' (List.mem_filter.mp hr').1, fun r' hr' => ?_⟩
    rw [List.mem_singleton.mp hr', hr]

theorem CombineInv.completes (h : CombineInv isStorable isRetryableReason errors w)
    {i : ℕ} {r : Received ν} {state : VowState ν} (hc : c ∈ w.created)
    (hcontext : r.context ∈ c.contexts) (hi : w.calls[i]? = some (r.context, r.result))
    (hr : r.incarnation = w.incarnation) (hawaiting : Awaiting isStorable w c state)
    (hkeep : ¬ (c.isAllSettled = false ∧ r.result.isRejected = true))
    (hlast : ¬ 1 < state.remaining) :
    CombinedAs isStorable errors c (w.receivedFor c.id ++ [r]) (completion errors r.context
      (heldWith isStorable r.context.index (wrapResult c.isAllSettled r.result)
        (w.nonStorable c.id))
      (storedWith isStorable r.context.index (wrapResult c.isAllSettled r.result)
        state.resultsMap)) := by
  obtain ⟨hindex, hid, hnumResults, hall⟩ := mem_contexts hcontext
  have hremaining := hawaiting.remaining
  have hwaiting := hawaiting.waiting
  have hlength : (w.receivedFor c.id).length + 1 = c.numResults := by omega
  obtain ⟨-, hnew⟩ := h.received_lt hc (by omega) hi hid
  obtain ⟨hstored, hheld⟩ := hawaiting.maps hr hnew
  obtain ⟨hevery, hbound, hinj, hinc⟩ := h.received_all hc hcontext hi hr hlength
  have hmem : r ∈ w.receivedFor c.id ++ [r] := List.mem_append_right _ (List.mem_singleton_self r)
  apply completion_combined ⟨hnumResults, hall⟩ _ _ hevery hbound hmem
  · intro r' hr'
    rw [hr]
    exact entry_cases hstored hheld hinj hinc hr'
  · rw [List.length_append, List.length_singleton, hlength]
  · intro hallVows
    rw [List.forall_mem_append]
    refine ⟨hawaiting.unrejected hallVows, fun r' hr' => ?_⟩
    rw [List.mem_singleton.mp hr']
    exact Bool.eq_false_iff.mpr fun hrejected => hkeep ⟨hallVows, hrejected⟩

theorem CombineInv.processes (h : CombineInv isStorable isRetryableReason errors w)
    {i : ℕ} {context : WatcherContext} {result : Result ν}
    (hi : w.calls[i]? = some (context, result)) :
    CombineInv isStorable isRetryableReason errors
      (CombineWorld.run (processResult isStorable errors result context) { w with
        calls := w.calls.eraseIdx i
        received := w.received ++ [⟨context, result, w.incarnation⟩] }) := by
  obtain ⟨watcher, hwatcher, rfl, -⟩ := h.watching.calls _ (List.mem_of_getElem? hi)
  obtain ⟨c, hc, hcontext⟩ := h.belongs watcher hwatcher
  obtain ⟨hindex, hid, -, hall⟩ := mem_contexts hcontext
  have hpos : 0 < c.numResults := by omega
  let r : Received ν := ⟨watcher.context, result, w.incarnation⟩
  let u : CombineWorld ν κ := { w with
    calls := w.calls.eraseIdx i, received := w.received ++ [r] }
  change CombineInv isStorable isRetryableReason errors
    (CombineWorld.run (processResult isStorable errors result watcher.context) u)
  unfold CombineWorld.run
  cases hstate : w.idToVowState.lookup c.id with
  | none =>
    have hlookup : u.idToVowState.lookup watcher.context.id = none := by
      rw [hid]
      exact hstate
    rw [processResult_settled hlookup]
    exact h.processes_settled (r := r) hc hpos hi hid rfl hstate
  | some state =>
    have hawaiting := (h.created c hc).awaiting state hpos hstate
    have hlookup : u.idToVowState.lookup watcher.context.id = some state := by
      rw [hid]
      exact hstate
    by_cases hfails : c.isAllSettled = false ∧ result.isRejected = true
    · rw [processResult_rejected hlookup (by rw [hall]; exact hfails)]
      dsimp only
      rw [hid, hawaiting.resolver]
      apply h.processes_concluded (r := r) hc hpos hi hid rfl hstate
      exact .rejected (r := r) hfails.1 rfl hfails.2 (hawaiting.unrejected hfails.1)
    · have hkeep : ¬ (watcher.context.isAllSettled = false ∧ result.isRejected = true) := by
        rw [hall]
        exact hfails
      have hnew := hawaiting.new_index (r := r) (h.received_lt hc hpos hi hid).2
      by_cases hmore : 1 < state.remaining
      · rw [processResult_kept hlookup hkeep (fun _ => hnew) hmore, hall]
        exact h.processes_kept (r := r) hc hcontext hi rfl hstate hfails hmore
      · rw [processResult_complete hlookup hkeep (fun _ => hnew) hmore]
        dsimp only
        rw [hall, hid, hawaiting.resolver]
        apply h.processes_concluded (r := r) hc hpos hi hid rfl hstate
        exact h.completes (r := r) hc hcontext hi rfl hawaiting hfails hmore

end Processed

section Upgrade

variable {isStorable : Entry ν → Bool} {isRetryableReason : ν → Option κ → Option κ}
  {errors : CombineErrors ν} {w : CombineWorld ν κ}

theorem WatcherInv.upgraded {watcher : PromiseWatcher ν κ}
    (h : WatcherInv isRetryableReason errors watcher) (lost : Bool) (disconnection : ν) :
    WatcherInv isRetryableReason errors (watcher.upgraded lost disconnection) := by
  refine ⟨?_, h.unwrapping, nofun⟩
  have hlive := h.live
  unfold PromiseWatcher.upgraded
  dsimp only
  cases hpromise : watcher.promise with
  | pending =>
    rw [hpromise] at hlive
    cases lost with
    | true => exact ⟨fun _ => nofun, fun _ => hlive.mpr nofun⟩
    | false => exact hlive
  | settled answer =>
    rw [hpromise] at hlive
    exact hlive
  | done =>
    rw [hpromise] at hlive
    exact hlive

theorem WatchingInv.upgraded (h : WatchingInv isRetryableReason errors w)
    (lost : ℕ → Bool) (disconnection : ν) :
    WatchingInv isRetryableReason errors { w with
      watchers := w.watchers.mapIdx fun i watcher => watcher.upgraded (lost i) disconnection } := by
  have hown : ∀ context result, Own isRetryableReason errors w.watchers context result →
      Own isRetryableReason errors
        (w.watchers.mapIdx fun i watcher => watcher.upgraded (lost i) disconnection)
        context result := by
    rintro context result ⟨watcher, hmem, hcontext, hsettled, hunwrapped⟩
    obtain ⟨i, hi⟩ := List.getElem?_of_mem hmem
    refine ⟨watcher.upgraded (lost i) disconnection, ?_, hcontext, hsettled, hunwrapped⟩
    apply List.mem_of_getElem? (i := i)
    rw [List.getElem?_mapIdx, hi]
    rfl
  let f : ℕ → PromiseWatcher ν κ → PromiseWatcher ν κ :=
    fun i watcher => watcher.upgraded (lost i) disconnection
  constructor
  case watchers =>
    intro watcher hmem
    obtain ⟨i, hi, rfl⟩ := List.mem_mapIdx.mp hmem
    exact (h.watchers _ (List.getElem_mem hi)).upgraded (lost i) disconnection
  case places =>
    have hplaces := h.places
    unfold CombineWorld.places at hplaces ⊢
    rw [map_filter_mapIdx (f := f) (fun _ _ => rfl) (fun _ _ => rfl),
      map_mapIdx (f := f) (fun _ _ => rfl)]
    exact hplaces
  case calls => exact fun call hmem => hown _ _ (h.calls call hmem)
  case received => exact fun r hmem => hown _ _ (h.received r hmem)

theorem CreatedInv.upgraded {c : Created} (h : CreatedInv isStorable errors w c)
    (hinc : ∀ r ∈ w.received, r.incarnation ≤ w.incarnation) :
    CreatedInv isStorable errors
      { w with idToNonStorableResults := ∅, incarnation := w.incarnation + 1 } c where
  vow := h.vow
  empty := h.empty
  id := h.id
  specimens := h.specimens
  awaiting state hpos hlookup := by
    have hawaiting := h.awaiting state hpos hlookup
    constructor
    case resolver => exact hawaiting.resolver
    case remaining => exact hawaiting.remaining
    case waiting => exact hawaiting.waiting
    case unrejected => exact hawaiting.unrejected
    case stored => exact hawaiting.stored
    case held =>
      intro k entry
      constructor
      · exact nofun
      · rintro ⟨r, hr, -, -, -, hincarnation⟩
        have hle := hinc r (List.mem_filter.mp hr).1
        dsimp only at hincarnation
        omega
    case unresolved => exact hawaiting.unresolved
  concluded hpos hlookup := ⟨rfl, (h.concluded hpos hlookup).outcome⟩

theorem CombineInv.upgrades (h : CombineInv isStorable isRetryableReason errors w)
    (lost : ℕ → Bool) (disconnection : ν) :
    CombineInv isStorable isRetryableReason errors { w with
      watchers := w.watchers.mapIdx fun i watcher => watcher.upgraded (lost i) disconnection
      idToNonStorableResults := ∅
      incarnation := w.incarnation + 1 } := by
  let f : ℕ → PromiseWatcher ν κ → PromiseWatcher ν κ :=
    fun i watcher => watcher.upgraded (lost i) disconnection
  have hcontexts : (w.watchers.mapIdx f).map PromiseWatcher.context =
      w.watchers.map PromiseWatcher.context := map_mapIdx (fun _ _ => rfl)
  have hwatching := h.watch hcontexts (h.watching.upgraded lost disconnection)
  exact
    { watching := { hwatching.watching with }
      created := fun c hc => (hwatching.created c hc).upgraded h.incarnations
      vows := h.vows
      ids := h.ids
      belongs := hwatching.belongs
      fresh := fun id hle => ⟨(h.fresh id hle).1, rfl⟩
      resolutions := h.resolutions
      incarnations := fun r hr => (h.incarnations r hr).trans (Nat.le_succ _)
      failures := h.failures }

end Upgrade

section Creation

variable {isStorable : Entry ν → Bool} {isRetryableReason : ν → Option κ → Option κ}
  {errors : CombineErrors ν} {w : CombineWorld ν κ}

/-- The watchers that are started for the specimens. -/
def startedFor (specimens : List (Specimen ν)) (start : ℕ) (context : ℕ → WatcherContext) :
    List (PromiseWatcher ν κ) :=
  (specimens.zipIdx start).map fun (specimen, index) =>
    { context := context index, promise := specimen.promised }

theorem watch_forM (specimens : List (Specimen ν)) (start : ℕ) (context : ℕ → WatcherContext)
    (w : CombineWorld ν κ) :
    ((specimens.zipIdx start).forM fun entry => watch entry.1 (context entry.2)) w =
      .ok ⟨⟩ { w with watchers := w.watchers ++ startedFor specimens start context } := by
  induction specimens generalizing start w with
  | nil =>
    unfold startedFor
    rw [List.zipIdx_nil, List.map_nil, List.append_nil]
    rfl
  | cons specimen specimens ih =>
    have hwatch : watch specimen (context start) w = .ok ⟨⟩ { w with watchers := w.watchers ++
        [{ context := context start, promise := specimen.promised }] } := rfl
    rw [List.zipIdx_cons]
    change (watch specimen (context start) >>= fun _ => (specimens.zipIdx (start + 1)).forM
      fun entry => watch entry.1 (context entry.2)) w = _
    rw [bind_run hwatch, ih]
    unfold startedFor
    rw [List.zipIdx_cons, List.map_cons, List.append_assoc]
    rfl

theorem startedFor_contexts (specimens : List (Specimen ν)) (start : ℕ)
    (context : ℕ → WatcherContext) :
    (startedFor (κ := κ) specimens start context).map PromiseWatcher.context =
      (List.range' start specimens.length).map context := by
  unfold startedFor
  rw [List.map_map, ← List.zipIdx_map_snd start specimens, List.map_map]
  rfl

theorem startedFor_live {specimens : List (Specimen ν)} {start : ℕ}
    {context : ℕ → WatcherContext} {watcher : PromiseWatcher ν κ}
    (h : watcher ∈ startedFor specimens start context) : watcher.hasResolver = true := by
  obtain ⟨⟨specimen, index⟩, -, rfl⟩ := List.mem_map.mp h
  rfl

theorem startedFor_inv {specimens : List (Specimen ν)} {start : ℕ}
    {context : ℕ → WatcherContext} {watcher : PromiseWatcher ν κ}
    (h : watcher ∈ startedFor specimens start context) :
    WatcherInv isRetryableReason errors watcher := by
  obtain ⟨⟨specimen, index⟩, -, rfl⟩ := List.mem_map.mp h
  refine ⟨?_, fun _ => .start, nofun⟩
  cases specimen with
  | value value => exact ⟨fun _ => nofun, fun _ => rfl⟩
  | vow vowV0 => exact ⟨fun _ => nofun, fun _ => rfl⟩
  | promise => exact ⟨fun _ => nofun, fun _ => rfl⟩

/-- The vow that is made next. -/
def CombineWorld.nextCreated (w : CombineWorld ν κ) (numResults : ℕ) (isAllSettled : Bool) :
    Created :=
  { vow := w.kits, id := w.nextId, numResults, isAllSettled }

/-- The world with one more vow that waits for its specimens. -/
def CombineWorld.awaits (w : CombineWorld ν κ) (specimens : List (Specimen ν))
    (isAllSettled : Bool) : CombineWorld ν κ :=
  { w with
    kits := w.kits + 1
    nextId := w.nextId + 1
    watchers := w.watchers ++ startedFor specimens 0 fun index =>
      ⟨w.nextId, index, specimens.length, isAllSettled⟩
    idToVowState := w.idToVowState.insert w.nextId
      { resolver := w.kits, remaining := specimens.length, resultsMap := ∅, isAllSettled }
    idToNonStorableResults := w.idToNonStorableResults.insert w.nextId ∅
    created := w.created ++ [w.nextCreated specimens.length isAllSettled] }

theorem createVow_run (specimens : List (Specimen ν)) (isAllSettled : Bool)
    (hpos : 0 < specimens.length) (hnew : w.idToVowState.lookup w.nextId = none) :
    createVow specimens isAllSettled w = .ok ⟨⟩ (w.awaits specimens isAllSettled) := by
  unfold createVow
  rw [bind_run get_run]
  dsimp only
  let context : ℕ → WatcherContext := fun index =>
    ⟨w.nextId, index, specimens.length, isAllSettled⟩
  have hkit : (modify fun x => { x with kits := w.kits + 1 } : Combine ν κ Unit) w =
      .ok ⟨⟩ { w with kits := w.kits + 1 } := rfl
  have hwatch := watch_forM specimens 0 context { w with kits := w.kits + 1 }
  have hhas : w.idToVowState.has w.nextId = false := by
    unfold Table.has
    rw [hnew]
    rfl
  rw [bind_run hkit, bind_run hwatch, if_pos hpos]
  have hnext : (modify fun x => { x with nextId := w.nextId + 1 } : Combine ν κ Unit)
      { w with
        kits := w.kits + 1
        watchers := w.watchers ++ startedFor specimens 0 context } =
      .ok ⟨⟩ { w with
        kits := w.kits + 1
        nextId := w.nextId + 1
        watchers := w.watchers ++ startedFor specimens 0 context } := rfl
  rw [bind_run hnext, bind_run get_run]
  dsimp only
  rw [hhas]
  rfl

/-- The vow for no specimens is settled when it is made. -/
def CombineWorld.empties (w : CombineWorld ν κ) (isAllSettled : Bool) : CombineWorld ν κ :=
  { w with
    kits := w.kits + 1
    resolutions := w.resolutions ++ [(w.kits, .fulfilled [])]
    created := w.created ++ [w.nextCreated 0 isAllSettled] }

theorem createVow_empty (isAllSettled : Bool) :
    createVow [] isAllSettled w = .ok ⟨⟩ (w.empties isAllSettled) := rfl

theorem CombineInv.receivedFor_fresh (h : CombineInv isStorable isRetryableReason errors w) :
    (w.watchers.map PromiseWatcher.context).filter (fun x => x.id = w.nextId) = [] ∧
      w.receivedFor w.nextId = [] := by
  have hid : ∀ watcher ∈ w.watchers, watcher.context.id ≠ w.nextId := by
    intro watcher hmem heq
    obtain ⟨c, hc, hcontext⟩ := h.belongs watcher hmem
    obtain ⟨hindex, hid, -⟩ := mem_contexts hcontext
    have hlt := (h.created c hc).id (by omega)
    omega
  constructor
  · apply List.filter_eq_nil_iff.mpr
    intro x hx
    obtain ⟨watcher, hmem, rfl⟩ := List.mem_map.mp hx
    rw [decide_eq_true_iff]
    exact hid watcher hmem
  · apply List.filter_eq_nil_iff.mpr
    intro r hr
    obtain ⟨watcher, hmem, hcontext, -⟩ := h.watching.received r hr
    rw [decide_eq_true_iff, ← hcontext]
    exact hid watcher hmem

theorem CombineInv.outcomes_fresh (h : CombineInv isStorable isRetryableReason errors w) :
    w.outcomes w.kits = [] := by
  apply List.filter_eq_nil_iff.mpr
  intro resolution hmem
  have hlt := h.resolutions resolution hmem
  rw [decide_eq_true_iff]
  omega

theorem nextCreated_contexts (specimens : List (Specimen ν)) (isAllSettled : Bool) :
    (startedFor (κ := κ) specimens 0 fun index =>
      ⟨w.nextId, index, specimens.length, isAllSettled⟩).map PromiseWatcher.context =
      (w.nextCreated specimens.length isAllSettled).contexts := by
  rw [startedFor_contexts, ← List.range_eq_range']
  rfl

theorem vows_append (h : CombineInv isStorable isRetryableReason errors w) {c : Created}
    (hvow : c.vow = w.kits) : ((w.created ++ [c]).map Created.vow).Nodup := by
  rw [List.map_append]
  apply List.nodup_append.mpr
  refine ⟨h.vows, List.nodup_singleton _, ?_⟩
  intro vow hmem vow' hmem' heq
  obtain ⟨d, hd, rfl⟩ := List.mem_map.mp hmem
  rw [List.map_singleton, List.mem_singleton, hvow] at hmem'
  have hlt := (h.created d hd).vow
  omega

theorem CombineInv.empties (h : CombineInv isStorable isRetryableReason errors w)
    (isAllSettled : Bool) :
    CombineInv isStorable isRetryableReason errors (w.empties isAllSettled) where
  watching := { h.watching with }
  created d hd := by
    rcases List.mem_append.mp hd with hd | hd
    · have hinv := h.created d hd
      apply hinv.frame (t := w.empties isAllSettled) (Nat.le_succ _) (Nat.le_refl _)
        (fun _ => rfl) rfl
      · exact filter_append_other hinv.vow.ne _ _
      · exact fun _ => ⟨rfl, rfl, rfl⟩
    · rw [List.mem_singleton.mp hd]
      constructor
      case vow => exact Nat.lt_succ_self _
      case empty =>
        intro _
        have hfresh := h.outcomes_fresh
        unfold CombineWorld.outcomes at hfresh
        unfold CombineWorld.outcomes CombineWorld.empties CombineWorld.nextCreated
        rw [filter_append_self, hfresh]
        rfl
      case id => exact nofun
      case specimens => exact nofun
      case awaiting => exact nofun
      case concluded => exact nofun
  vows := vows_append h rfl
  ids c hc d hd hcpos hdpos heq := by
    rcases List.mem_append.mp hc with hc | hc
    · rcases List.mem_append.mp hd with hd | hd
      · exact h.ids c hc d hd hcpos hdpos heq
      · rw [List.mem_singleton.mp hd] at hdpos
        exact absurd hdpos (Nat.lt_irrefl 0)
    · rw [List.mem_singleton.mp hc] at hcpos
      exact absurd hcpos (Nat.lt_irrefl 0)
  belongs watcher hmem := by
    obtain ⟨c, hc, hcontext⟩ := h.belongs watcher hmem
    exact ⟨c, List.mem_append_left _ hc, hcontext⟩
  fresh := h.fresh
  resolutions resolution hmem := by
    rcases List.mem_append.mp hmem with hmem | hmem
    · exact (h.resolutions resolution hmem).trans (Nat.lt_succ_self _)
    · rw [List.mem_singleton.mp hmem]
      exact Nat.lt_succ_self _
  incarnations := h.incarnations
  failures := h.failures

theorem WatchingInv.awaits (h : WatchingInv isRetryableReason errors w)
    (specimens : List (Specimen ν)) (isAllSettled : Bool) :
    WatchingInv isRetryableReason errors (w.awaits specimens isAllSettled) where
  watchers watcher hmem := by
    rcases List.mem_append.mp hmem with hmem | hmem
    · exact h.watchers watcher hmem
    · exact startedFor_inv hmem
  places := by
    have hplaces := h.places
    unfold CombineWorld.places at hplaces ⊢
    unfold CombineWorld.awaits
    dsimp only
    have hstarted : (startedFor (κ := κ) specimens 0 fun index =>
        ⟨w.nextId, index, specimens.length, isAllSettled⟩).filter PromiseWatcher.hasResolver =
        startedFor specimens 0 fun index =>
          ⟨w.nextId, index, specimens.length, isAllSettled⟩ := by
      apply List.filter_eq_self.mpr
      intro watcher hmem
      exact startedFor_live hmem
    rw [List.filter_append, hstarted, List.map_append, List.map_append]
    apply List.perm_iff_count.mpr
    intro a
    have hcount := List.perm_iff_count.mp hplaces a
    simp only [List.count_append] at hcount ⊢
    omega
  calls call hmem := by
    obtain ⟨watcher, hwatcher, hown⟩ := h.calls call hmem
    exact ⟨watcher, List.mem_append_left _ hwatcher, hown⟩
  received r hmem := by
    obtain ⟨watcher, hwatcher, hown⟩ := h.received r hmem
    exact ⟨watcher, List.mem_append_left _ hwatcher, hown⟩

theorem CreatedInv.awaits {d : Created} (h : CreatedInv isStorable errors w d)
    (specimens : List (Specimen ν)) (isAllSettled : Bool) :
    CreatedInv isStorable errors (w.awaits specimens isAllSettled) d := by
  apply h.frame (t := w.awaits specimens isAllSettled) (Nat.le_succ _) (Nat.le_succ _) _ rfl rfl
  · intro hpos
    have hne := (h.id hpos).ne
    unfold CombineWorld.awaits
    dsimp only
    rw [Table.lookup_insert, Table.lookup_insert, if_neg hne, if_neg hne]
    exact ⟨rfl, rfl, rfl⟩
  · intro hpos
    have hlt := h.id hpos
    unfold CombineWorld.awaits
    dsimp only
    rw [List.map_append, List.filter_append, nextCreated_contexts]
    have hnone : (w.nextCreated specimens.length isAllSettled).contexts.filter
        (fun x => x.id = d.id) = [] := by
      apply List.filter_eq_nil_iff.mpr
      intro x hx
      have hid : x.id = w.nextId := (mem_contexts hx).2.1
      rw [decide_eq_true_iff]
      omega
    rw [hnone, List.append_nil]

theorem CombineInv.awaits_self (h : CombineInv isStorable isRetryableReason errors w)
    (specimens : List (Specimen ν)) (isAllSettled : Bool) (hpos : 0 < specimens.length) :
    CreatedInv isStorable errors (w.awaits specimens isAllSettled)
      (w.nextCreated specimens.length isAllSettled) := by
  obtain ⟨hwatchers, hreceived⟩ := h.receivedFor_fresh
  have hstate : (w.awaits specimens isAllSettled).idToVowState.lookup w.nextId = some
      { resolver := w.kits, remaining := specimens.length, resultsMap := ∅, isAllSettled } := by
    unfold CombineWorld.awaits
    dsimp only
    rw [Table.lookup_insert, if_pos rfl]
  have hheld : (w.awaits specimens isAllSettled).nonStorable w.nextId = ∅ := by
    unfold CombineWorld.awaits CombineWorld.nonStorable
    dsimp only
    rw [Table.lookup_insert, if_pos rfl]
    rfl
  have hreceived : (w.awaits specimens isAllSettled).receivedFor w.nextId = [] := hreceived
  constructor
  case vow => exact Nat.lt_succ_self _
  case empty => exact fun hzero => absurd hzero (Nat.ne_of_gt hpos)
  case id => exact fun _ => Nat.lt_succ_self _
  case specimens =>
    intro _
    unfold CombineWorld.awaits
    dsimp only
    rw [List.map_append, List.filter_append, nextCreated_contexts]
    have hself : (w.nextCreated specimens.length isAllSettled).contexts.filter
        (fun x => x.id = w.nextId) = (w.nextCreated specimens.length isAllSettled).contexts := by
      apply List.filter_eq_self.mpr
      intro x hx
      exact decide_eq_true (mem_contexts hx).2.1
    exact (congrArg₂ _ hwatchers hself).trans (List.nil_append _)
  case awaiting =>
    intro state _ hlookup
    cases hstate.symm.trans hlookup
    constructor
    case resolver => rfl
    case remaining =>
      change specimens.length + ((w.awaits specimens isAllSettled).receivedFor w.nextId).length =
        specimens.length
      rw [hreceived]
      rfl
    case waiting => exact hpos
    case unrejected =>
      intro _ r hr
      change r ∈ (w.awaits specimens isAllSettled).receivedFor w.nextId at hr
      rw [hreceived] at hr
      cases hr
    case stored =>
      intro k entry
      change _ ↔ ∃ r ∈ (w.awaits specimens isAllSettled).receivedFor w.nextId, _
      rw [hreceived]
      exact ⟨nofun, nofun⟩
    case held =>
      intro k entry
      change ((w.awaits specimens isAllSettled).nonStorable w.nextId).lookup k = some entry ↔
        ∃ r ∈ (w.awaits specimens isAllSettled).receivedFor w.nextId, _
      rw [hreceived, hheld]
      exact ⟨nofun, nofun⟩
    case unresolved => exact h.outcomes_fresh
  case concluded => exact fun _ hnone => nomatch hstate.symm.trans hnone

theorem CombineInv.awaits (h : CombineInv isStorable isRetryableReason errors w)
    (specimens : List (Specimen ν)) (isAllSettled : Bool) (hpos : 0 < specimens.length) :
    CombineInv isStorable isRetryableReason errors (w.awaits specimens isAllSettled) where
  watching := h.watching.awaits specimens isAllSettled
  created d hd := by
    rcases List.mem_append.mp hd with hd | hd
    · exact (h.created d hd).awaits specimens isAllSettled
    · rw [List.mem_singleton.mp hd]
      exact h.awaits_self specimens isAllSettled hpos
  vows := vows_append h rfl
  ids c hc d hd hcpos hdpos heq := by
    rcases List.mem_append.mp hc with hc | hc
    · have hlt := (h.created c hc).id hcpos
      rcases List.mem_append.mp hd with hd | hd
      · exact h.ids c hc d hd hcpos hdpos heq
      · rw [List.mem_singleton.mp hd] at heq
        exact absurd heq hlt.ne
    · rcases List.mem_append.mp hd with hd | hd
      · have hlt := (h.created d hd).id hdpos
        rw [List.mem_singleton.mp hc] at heq
        exact absurd heq hlt.ne'
      · rw [List.mem_singleton.mp hc, List.mem_singleton.mp hd]
  belongs watcher hmem := by
    rcases List.mem_append.mp hmem with hmem | hmem
    · obtain ⟨c, hc, hcontext⟩ := h.belongs watcher hmem
      exact ⟨c, List.mem_append_left _ hc, hcontext⟩
    · refine ⟨_, List.mem_append_right _ (List.mem_singleton_self _), ?_⟩
      rw [← nextCreated_contexts]
      exact List.mem_map_of_mem hmem
  fresh id hle := by
    change w.nextId + 1 ≤ id at hle
    have hne : id ≠ w.nextId := by omega
    unfold CombineWorld.awaits
    dsimp only
    rw [Table.lookup_insert, Table.lookup_insert, if_neg hne, if_neg hne]
    exact h.fresh id (by omega)
  resolutions resolution hmem := (h.resolutions resolution hmem).trans (Nat.lt_succ_self _)
  incarnations := h.incarnations
  failures := h.failures

theorem CombineInv.createVow (h : CombineInv isStorable isRetryableReason errors w)
    (specimens : List (Specimen ν)) (isAllSettled : Bool) :
    CombineInv isStorable isRetryableReason errors
      (w.run (Vow.createVow specimens isAllSettled)) := by
  unfold CombineWorld.run
  cases specimens with
  | nil =>
    rw [createVow_empty]
    exact h.empties isAllSettled
  | cons specimen specimens =>
    have hpos : 0 < (specimen :: specimens).length := Nat.succ_pos _
    rw [createVow_run _ _ hpos (h.fresh w.nextId (Nat.le_refl _)).1]
    exact h.awaits _ isAllSettled hpos

end Creation

section Runs

variable {isStorable : Entry ν → Bool} {isRetryableReason : ν → Option κ → Option κ}
  {errors : CombineErrors ν} {w t : CombineWorld ν κ}

theorem CombineInv.init :
    CombineInv isStorable isRetryableReason errors ({} : CombineWorld ν κ) where
  watching := ⟨nofun, .refl _, nofun, nofun⟩
  created := nofun
  vows := List.nodup_nil
  ids := nofun
  belongs := nofun
  fresh _ _ := ⟨rfl, rfl⟩
  resolutions := nofun
  incarnations := nofun
  failures := rfl

theorem CombineInv.step (h : CombineInv isStorable isRetryableReason errors w)
    {event : CombineEvent ν}
    (hstep : combineStep isStorable isRetryableReason errors w event = some t) :
    CombineInv isStorable isRetryableReason errors t := by
  cases event with
  | createVow specimens isAllSettled =>
    cases hstep
    exact h.createVow specimens isAllSettled
  | settles i answer =>
    unfold combineStep at hstep
    dsimp only at hstep
    cases hi : w.watchers[i]? with
    | none =>
      rw [hi] at hstep
      cases hstep
    | some watcher =>
      rw [hi] at hstep
      dsimp only at hstep
      cases hpromise : watcher.promise with
      | pending =>
        rw [hpromise] at hstep
        cases hstep
        exact h.settles hi hpromise answer
      | settled earlier =>
        rw [hpromise] at hstep
        cases hstep
      | done =>
        rw [hpromise] at hstep
        cases hstep
  | reacts i =>
    unfold combineStep at hstep
    dsimp only at hstep
    cases hi : w.watchers[i]? with
    | none =>
      rw [hi] at hstep
      cases hstep
    | some watcher =>
      rw [hi] at hstep
      dsimp only at hstep
      cases hpromise : watcher.promise with
      | pending =>
        rw [hpromise] at hstep
        cases hstep
      | settled answer =>
        rw [hpromise] at hstep
        cases hstep
        exact h.reacts hi hpromise
      | done =>
        rw [hpromise] at hstep
        cases hstep
  | processes i =>
    unfold combineStep at hstep
    dsimp only at hstep
    cases hi : w.calls[i]? with
    | none =>
      rw [hi] at hstep
      cases hstep
    | some call =>
      obtain ⟨context, result⟩ := call
      rw [hi] at hstep
      cases hstep
      exact h.processes hi
  | upgrade lost disconnection =>
    unfold combineStep at hstep
    dsimp only at hstep
    cases hcalls : w.calls with
    | nil =>
      have hupgraded := h.upgrades lost disconnection
      rw [hcalls] at hstep hupgraded
      cases hstep
      exact hupgraded
    | cons call calls =>
      rw [hcalls] at hstep
      cases hstep

theorem combineInv_reachable
    (h : (combinedVows isStorable isRetryableReason errors).Reachable anyStep w) :
    CombineInv isStorable isRetryableReason errors w := by
  apply h.invariant
  · rintro s rfl
    exact .init
  · exact fun s event t hs _ hstep => hs.step hstep

/-- Some specimen of the vow is being followed to its end, or its result is to be processed. -/
def CombineWorld.Waits (w : CombineWorld ν κ) (c : Created) : Prop :=
  (∃ watcher ∈ w.watchers, watcher.hasResolver = true ∧ watcher.context ∈ c.contexts) ∨
    ∃ call ∈ w.calls, call.1 ∈ c.contexts

theorem CombineInv.waits (h : CombineInv isStorable isRetryableReason errors w) {c : Created}
    (hc : c ∈ w.created) {state : VowState ν} (hpos : 0 < c.numResults)
    (hstate : w.idToVowState.lookup c.id = some state) : w.Waits c := by
  have hawaiting := (h.created c hc).awaiting state hpos hstate
  have hperm := h.received_perm hc hpos
  have hlength := hperm.length_eq
  rw [contexts_length, List.length_append, List.length_map] at hlength
  have hremaining := hawaiting.remaining
  have hwaiting := hawaiting.waiting
  obtain ⟨context, hmem⟩ := List.exists_mem_of_length_pos (l :=
    ((w.watchers.filter PromiseWatcher.hasResolver).map PromiseWatcher.context ++
      w.calls.map Prod.fst).filter fun x => x.id = c.id) (by omega)
  have hcontext : context ∈ c.contexts := hperm.mem_iff.mpr (List.mem_append_left _ hmem)
  rcases List.mem_append.mp (List.mem_filter.mp hmem).1 with hmem | hmem
  · obtain ⟨watcher, hwatcher, rfl⟩ := List.mem_map.mp hmem
    obtain ⟨hwatcher, hlive⟩ := List.mem_filter.mp hwatcher
    exact .inl ⟨watcher, hwatcher, hlive, hcontext⟩
  · obtain ⟨call, hcall, rfl⟩ := List.mem_map.mp hmem
    exact .inr ⟨call, hcall, hcontext⟩

/-- What holds of a combined vow: it waits for a result, or it has settled once with the
results of its specimens and nothing is kept for it. -/
structure CombinedInPlace (isStorable : Entry ν → Bool)
    (isRetryableReason : ν → Option κ → Option κ) (errors : CombineErrors ν)
    (w : CombineWorld ν κ) (c : Created) : Prop where
  empty : c.numResults = 0 → w.outcomes c.vow = [(c.vow, .fulfilled [])]
  some : 0 < c.numResults →
    (w.outcomes c.vow = [] ∧ w.Waits c) ∨
      ((∃ outcome, w.outcomes c.vow = [(c.vow, outcome)] ∧
          CombinedAs isStorable errors c (w.receivedFor c.id) outcome) ∧
        w.idToVowState.lookup c.id = none ∧ w.idToNonStorableResults.lookup c.id = none)
  own : 0 < c.numResults → ∀ r ∈ w.receivedFor c.id, r.context ∈ c.contexts ∧
    Own isRetryableReason errors w.watchers r.context r.result
  once : 0 < c.numResults → ((w.receivedFor c.id).map Received.context).Nodup

/-- The specimens' results in a run: the odd values cannot be stored. -/
def combinedRun : List (CombineEvent ℕ) :=
  [.createVow [.value 3, .promise, .vow 7] true, .createVow [] false,
    .createVow [.promise, .promise] false,
    .reacts 0, .reacts 2, .processes 0, .settles 3 (.rejected 8), .reacts 3, .processes 0,
    .upgrade (fun _ => false) 9, .settles 1 (.fulfilled 4), .settles 2 (.fulfilled 6),
    .reacts 1, .reacts 2, .processes 1, .processes 0, .settles 4 (.fulfilled 2), .reacts 4,
    .processes 0]

end Runs

end AgoricSdk.Vow
