import AgoricSdk.Vow.Retryable

/-!
Vows for several results. Each specimen is watched by a watcher of its own, which follows a
chain of vows to its end and reports the result under the id of the combined vow and the index
of the specimen. What has been reported is stored, or kept in memory if it cannot be.
-/

namespace AgoricSdk.Vow

open StateProgram

variable {ν κ α : Type}

section Watch

/-- What a promise settles to. A vow is known by its shortener. -/
inductive Answer (ν : Type) where
  | fulfilled (value : ν)
  | vow (vowV0 : ℕ)
  | rejected (reason : ν)
  deriving DecidableEq

structure WatcherContext where
  id : ℕ
  index : ℕ
  numResults : ℕ
  isAllSettled : Bool
  deriving DecidableEq

inductive WatchedPromise (ν : Type) where
  | pending
  | settled (answer : Answer ν)
  | done
  deriving DecidableEq

/-- The state of a promise watcher, which loses its resolver when it settles. The payloads it
has seen are ephemeral. The last field tells what it has been called with. -/
structure PromiseWatcher (ν κ : Type) where
  context : WatcherContext
  promise : WatchedPromise ν
  vow : Option ℕ := none
  priorRetryValue : Option κ := none
  hasResolver : Bool := true
  seenPayloads : List ℕ := []
  answers : List (Answer ν) := []
  deriving DecidableEq

inductive CombineFailure where
  | multipleCalls
  | alreadyRegistered (key : ℕ)
  | notFound (key : ℕ)
  deriving DecidableEq

/-- The errors that the code makes. -/
structure CombineErrors (ν : Type) where
  cycleDetected : ν
  resultLost : ν
  resultsLost : ℕ → ν

/-- A watcher after a call, and the result it settles with, if it does. -/
abbrev Watching (ν κ : Type) :=
  Except CombineFailure (PromiseWatcher ν κ × Option (Result ν))

def PromiseWatcher.watchNextStep (watcher : PromiseWatcher ν κ) : PromiseWatcher ν κ :=
  { watcher with promise := .pending }

def PromiseWatcher.settle (watcher : PromiseWatcher ν κ) (result : Result ν) : Watching ν κ :=
  .ok ({ watcher with
    promise := .done, priorRetryValue := none, hasResolver := false, seenPayloads := [] },
    some result)

def PromiseWatcher.onRejected (isRetryableReason : ν → Option κ → Option κ)
    (watcher : PromiseWatcher ν κ) (reason : ν) : Watching ν κ :=
  if watcher.hasResolver = false then .error .multipleCalls
  else match isRetryableReason reason watcher.priorRetryValue with
    | some retryValue =>
      -- Without a vow there is nothing to ask again.
      if watcher.vow.isSome then
        .ok ({ watcher with priorRetryValue := some retryValue }.watchNextStep, none)
      else watcher.settle (.rejected reason)
    | none => watcher.settle (.rejected reason)

def PromiseWatcher.onFulfilled (isRetryableReason : ν → Option κ → Option κ)
    (cycleDetected : ν) (watcher : PromiseWatcher ν κ) (answer : ν ⊕ ℕ) : Watching ν κ :=
  if watcher.hasResolver = false then .error .multipleCalls
  else match answer with
    | .inr vowV0 =>
      if vowV0 ∈ watcher.seenPayloads then watcher.onRejected isRetryableReason cycleDetected
      else .ok ({ watcher with
        seenPayloads := vowV0 :: watcher.seenPayloads, vow := some vowV0 }.watchNextStep, none)
    | .inl value => watcher.settle (.fulfilled value)

def PromiseWatcher.call (isRetryableReason : ν → Option κ → Option κ) (cycleDetected : ν)
    (watcher : PromiseWatcher ν κ) : Answer ν → Watching ν κ
  | .fulfilled value => watcher.onFulfilled isRetryableReason cycleDetected (.inl value)
  | .vow vowV0 => watcher.onFulfilled isRetryableReason cycleDetected (.inr vowV0)
  | .rejected reason => watcher.onRejected isRetryableReason reason

end Watch

section World

def Result.isRejected : Result ν → Bool
  | .fulfilled _ => false
  | .rejected _ => true

/-- What is kept of a result: the value, or a record of the outcome. -/
inductive Entry (ν : Type) where
  | value (value : ν)
  | record (result : Result ν)
  deriving DecidableEq

structure VowState (ν : Type) where
  resolver : ℕ
  remaining : ℕ
  resultsMap : Table ℕ (Entry ν)
  isAllSettled : Bool

/-- What a combined vow is given. An entry that is undefined is `none`. -/
inductive Combined (ν : Type) where
  | fulfilled (results : List (Option (Entry ν)))
  | rejected (reason : ν)
  deriving DecidableEq

/-- A combined vow that has been made, with its id. -/
structure Created where
  vow : ℕ
  id : ℕ
  numResults : ℕ
  isAllSettled : Bool
  deriving DecidableEq

/-- A result that has been received, and in which incarnation of the vat. -/
structure Received (ν : Type) where
  context : WatcherContext
  result : Result ν
  incarnation : ℕ
  deriving DecidableEq

/-- `calls` are the calls of the watchers in the current crank. The last four fields tell what
has happened. -/
structure CombineWorld (ν κ : Type) where
  nextId : ℕ := 0
  idToVowState : Table ℕ (VowState ν) := ∅
  idToNonStorableResults : Table ℕ (Table ℕ (Entry ν)) := ∅
  kits : ℕ := 0
  watchers : List (PromiseWatcher ν κ) := []
  calls : List (WatcherContext × Result ν) := []
  incarnation : ℕ := 0
  created : List Created := []
  received : List (Received ν) := []
  resolutions : List (ℕ × Combined ν) := []
  failures : List CombineFailure := []

abbrev Combine (ν κ α : Type) := EStateM CombineFailure (CombineWorld ν κ) α

/-- A specimen is a value or a vow, or a promise for one. -/
inductive Specimen (ν : Type) where
  | value (value : ν)
  | vow (vowV0 : ℕ)
  | promise
  deriving DecidableEq

def Specimen.promised : Specimen ν → WatchedPromise ν
  | .value x => .settled (.fulfilled x)
  | .vow vowV0 => .settled (.vow vowV0)
  | .promise => .pending

def watch (specimen : Specimen ν) (context : WatcherContext) : Combine ν κ Unit :=
  modify fun w => { w with
    watchers := w.watchers ++ [{ context, promise := specimen.promised }] }

def settleCombined (resolver : ℕ) (outcome : Combined ν) : Combine ν κ Unit :=
  modify fun w => { w with resolutions := w.resolutions ++ [(resolver, outcome)] }

end World

section Utils

variable (isStorable : Entry ν → Bool) (errors : CombineErrors ν)

def createVow (specimens : List (Specimen ν)) (isAllSettled : Bool) : Combine ν κ Unit := do
  let { nextId := id, kits := vow, .. } ← get
  modify fun w => { w with kits := vow + 1 }
  specimens.zipIdx.forM fun (specimen, index) =>
    watch specimen { id, index, numResults := specimens.length, isAllSettled }
  if 0 < specimens.length then
    modify fun w => { w with nextId := id + 1 }
    if (← get).idToVowState.has id then throw (.alreadyRegistered id)
    modify fun w => { w with
      idToVowState := w.idToVowState.insert id
        { resolver := vow, remaining := specimens.length, resultsMap := ∅, isAllSettled }
      idToNonStorableResults := w.idToNonStorableResults.insert id ∅ }
  else
    settleCombined vow (.fulfilled [])
  modify fun w => { w with
    created := w.created ++ [{ vow, id, numResults := specimens.length, isAllSettled }] }

def wrapResult (isAllSettled : Bool) (result : Result ν) : Entry ν :=
  if isAllSettled then .record result else .value result.value

/-- Extract the array: the entry of each index, or what stands for one that is lost. -/
def extractResults (numResults : ℕ) (isAllSettled : Bool)
    (nonStorableResults resultsMap : Table ℕ (Entry ν)) : List (Option (Entry ν)) :=
  (List.range numResults).map fun i =>
    match nonStorableResults.lookup i, resultsMap.lookup i with
    | some entry, _ => some entry
    | none, some entry => some entry
    | none, none => if isAllSettled then some (.record (.rejected errors.resultLost)) else none

def countLost (numResults : ℕ) (nonStorableResults resultsMap : Table ℕ (Entry ν)) : ℕ :=
  (List.range numResults).countP fun i => !nonStorableResults.has i && !resultsMap.has i

def deleteVowState (id : ℕ) : Combine ν κ Unit := do
  if (← get).idToVowState.has id = false then throw (.notFound id)
  modify fun w => { w with
    idToVowState := w.idToVowState.erase id
    idToNonStorableResults := w.idToNonStorableResults.erase id }

/-- Keep a result in the durable map, or in memory if it cannot be stored. -/
def keepResult (id index : ℕ) (resultsMap : Table ℕ (Entry ν)) (entry : Entry ν) :
    Combine ν κ (Table ℕ (Entry ν)) := do
  let nonStorableResults := ((← get).idToNonStorableResults.lookup id).getD ∅
  if isStorable entry then
    modify fun w => { w with
      idToNonStorableResults := w.idToNonStorableResults.insert id nonStorableResults }
    if resultsMap.has index then throw (.alreadyRegistered index)
    return resultsMap.insert index entry
  else
    modify fun w => { w with
      idToNonStorableResults := w.idToNonStorableResults.insert id
        (nonStorableResults.insert index entry) }
    return resultsMap

def processResult (result : Result ν) (context : WatcherContext) : Combine ν κ Unit := do
  let { id, index, numResults, isAllSettled } := context
  match (← get).idToVowState.lookup id with
  -- Resolution of the returned vow happened already.
  | none => pure ()
  | some { resolver, remaining, resultsMap, .. } =>
    if isAllSettled = false ∧ result.isRejected = true then
      deleteVowState id
      settleCombined resolver (.rejected result.value)
    else
      let resultsMap ← keepResult isStorable id index resultsMap (wrapResult isAllSettled result)
      if 1 < remaining then
        modify fun w => { w with
          idToVowState := w.idToVowState.insert id
            { resolver, remaining := remaining - 1, resultsMap, isAllSettled } }
      else
        let nonStorableResults := ((← get).idToNonStorableResults.lookup id).getD ∅
        deleteVowState id
        let numLost := countLost numResults nonStorableResults resultsMap
        if 0 < numLost ∧ isAllSettled = false then
          settleCombined resolver (.rejected (errors.resultsLost numLost))
        else
          settleCombined resolver <| .fulfilled <|
            extractResults errors numResults isAllSettled nonStorableResults resultsMap

end Utils

section Steps

/-- Promises settle in any order, and watchers react to them in any order. An upgrade rejects
the promises that are `lost`, and everything ephemeral is gone. -/
inductive CombineEvent (ν : Type) where
  | createVow (specimens : List (Specimen ν)) (isAllSettled : Bool)
  | settles (i : ℕ) (answer : Answer ν)
  | reacts (i : ℕ)
  | processes (i : ℕ)
  | upgrade (lost : ℕ → Bool) (disconnection : ν)

def CombineWorld.run (m : Combine ν κ α) (w : CombineWorld ν κ) : CombineWorld ν κ :=
  match m w with
  | .ok _ t => t
  | .error failure t => { t with failures := t.failures ++ [failure] }

def PromiseWatcher.upgraded (lost : Bool) (disconnection : ν) (watcher : PromiseWatcher ν κ) :
    PromiseWatcher ν κ :=
  { watcher with
    seenPayloads := []
    promise := match watcher.promise with
      | .pending => if lost then .settled (.rejected disconnection) else .pending
      | promise => promise }

variable (isStorable : Entry ν → Bool) (isRetryableReason : ν → Option κ → Option κ)
  (errors : CombineErrors ν)

/-- A watcher is called with the answer it waits for, and its result is one for this crank. -/
def react (i : ℕ) (watcher : PromiseWatcher ν κ) (answer : Answer ν) (w : CombineWorld ν κ) :
    CombineWorld ν κ :=
  let asked := { watcher with promise := .done, answers := watcher.answers ++ [answer] }
  match asked.call isRetryableReason errors.cycleDetected answer with
  | .error failure =>
    { w with watchers := w.watchers.set i asked, failures := w.failures ++ [failure] }
  | .ok (watcher, none) => { w with watchers := w.watchers.set i watcher }
  | .ok (watcher, some result) =>
    { w with
      watchers := w.watchers.set i watcher
      calls := w.calls ++ [(watcher.context, result)] }

/-- Results are processed in the crank in which the watchers settle, so none is left when the
vat is upgraded. -/
def combineStep (w : CombineWorld ν κ) : CombineEvent ν → Option (CombineWorld ν κ)
  | .createVow specimens isAllSettled => some (w.run (createVow specimens isAllSettled))
  | .settles i answer =>
    match w.watchers[i]? with
    | some watcher =>
      match watcher.promise with
      | .pending =>
        some { w with watchers := w.watchers.set i { watcher with promise := .settled answer } }
      | _ => none
    | none => none
  | .reacts i =>
    match w.watchers[i]? with
    | some watcher =>
      match watcher.promise with
      | .settled answer => some (react isRetryableReason errors i watcher answer w)
      | _ => none
    | none => none
  | .processes i =>
    match w.calls[i]? with
    | some (context, result) =>
      some <| CombineWorld.run (processResult isStorable errors result context) { w with
        calls := w.calls.eraseIdx i
        received := w.received ++ [⟨context, result, w.incarnation⟩] }
    | none => none
  | .upgrade lost disconnection =>
    match w.calls with
    | [] => some { w with
        watchers := w.watchers.mapIdx fun i watcher => watcher.upgraded (lost i) disconnection
        idToNonStorableResults := ∅
        incarnation := w.incarnation + 1 }
    | _ => none

def combinedVows : TransitionSystem (CombineWorld ν κ) (CombineEvent ν) where
  init w := w = {}
  step := combineStep isStorable isRetryableReason errors

end Steps

end AgoricSdk.Vow
