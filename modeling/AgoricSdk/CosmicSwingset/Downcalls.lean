import AgoricSdk.Lib.Throwing

/-!
What is done to the kernel and what it sends to the chain meanwhile. The kernel is
deterministic, so that its state is the history of what was done to it and of the
replies it got. Its export data is noted in the swing-store, and each crank ends with
a batch of what was noted, which is sent to the chain as well.
-/

namespace AgoricSdk.CosmicSwingset

/-- A key of the swing-store with its new value, or none when it was deleted. -/
abbrev ExportUpdate := String × Option String

inductive ChainSend where
  /-- `swingStoreUpdateExportData` -/
  | exportData (updates : List ExportUpdate)
  | downcall (port message : String)
  deriving DecidableEq

/-- What was sent, and the reply to it. -/
abbrev SavedChainSend := ChainSend × String

/-- The batches of export data among the sends. -/
def exportsOf (sends : List SavedChainSend) : List (List ExportUpdate) :=
  sends.filterMap fun sent =>
    match sent.1 with
    | .exportData updates => some updates
    | .downcall _ _ => none

/-- An action that must be consumed during its block. -/
inductive ForcedAction where
  | kernelUpgradeEvents (blockHeight : Nat)
  | coreEval (blockHeight : Nat) (key jsCode : String)
  deriving DecidableEq

inductive KernelInput (Params : Type) where
  | initializeSwingset
  | upgradeSwingset
  | applyVatOptionUpdates (updates : List String)
  | bootstrapBlock (blockHeight blockTime : Nat) (params : Params)
  | installBundles (coreProposals : List String)
  | endBlock (blockHeight blockTime : Nat) (params : Params) (runThisBlock : List ForcedAction)
  | saveChainState

/-- Something that was done to the kernel, with what the chain was sent meanwhile. -/
structure Execution (Params : Type) where
  input : KernelInput Params
  sends : List SavedChainSend

abbrev History (Params : Type) := List (Execution Params)

/-- What the kernel does in turn: it awaits the reply of each send. -/
inductive Downcalls where
  | done
  | throws (message : String)
  | send (port message : String) (next : String → Downcalls)
  | noteExport (update : ExportUpdate) (next : Downcalls)
  | endCrank (next : Downcalls)

variable {Chain : Type}

/-- The chain and the export data that was noted but not sent yet. -/
structure CallState (Chain : Type) where
  chain : Chain
  pendingExports : List ExportUpdate

def addPendingExport (pendingExports : List ExportUpdate) (update : ExportUpdate) :
    List ExportUpdate :=
  (pendingExports.filter fun noted => noted.1 ≠ update.1) ++ [update]

/-- Send what was noted, unless the callback is called at a bad time. -/
def flushPendingExports (agccSend : Chain → ChainSend → Chain × String)
    (allowExportCallback : Bool) (s : CallState Chain) :
    Except String (List SavedChainSend × CallState Chain) :=
  if s.pendingExports = [] then .ok ([], s)
  else if ¬ allowExportCallback then .error "export-data callback called at bad time"
  else
    let updates := s.pendingExports.mergeSort fun a b => decide (a.1 ≤ b.1)
    let (chain, ret) := agccSend s.chain (.exportData updates)
    .ok ([(.exportData updates, ret)], { chain, pendingExports := [] })

/-- The sends in order, and the state after them. The sends of the export callback are
asynchronous, but made in order and awaited before an action ends. -/
def Downcalls.run (agccSend : Chain → ChainSend → Chain × String) (allowExportCallback : Bool) :
    Downcalls → CallState Chain → Except String (List SavedChainSend × CallState Chain)
  | .done, s => .ok ([], s)
  | .throws message, _ => .error message
  | .send port message next, s => do
    let (chain, ret) := agccSend s.chain (.downcall port message)
    let (sends, s) ← (next ret).run agccSend allowExportCallback { s with chain }
    return ((.downcall port message, ret) :: sends, s)
  | .noteExport update next, s =>
    let pendingExports := addPendingExport s.pendingExports update
    next.run agccSend allowExportCallback { s with pendingExports }
  | .endCrank next, s => do
    let (flushed, s) ← flushPendingExports agccSend allowExportCallback s
    let (sends, s) ← next.run agccSend allowExportCallback s
    return (flushed ++ sends, s)

section Exports

variable {agccSend : Chain → ChainSend → Chain × String}

theorem exportsOf_append (sends sends' : List SavedChainSend) :
    exportsOf (sends ++ sends') = exportsOf sends ++ exportsOf sends' :=
  List.filterMap_append

theorem exportsOf_flush {s t : CallState Chain} {sends : List SavedChainSend}
    (h : flushPendingExports agccSend false s = .ok (sends, t)) : sends = [] ∧ t = s := by
  unfold flushPendingExports at h
  split at h
  · cases h
    exact ⟨rfl, rfl⟩
  · cases h

theorem exportsOf_run (calls : Downcalls) {s t : CallState Chain} {sends : List SavedChainSend}
    (h : calls.run agccSend false s = .ok (sends, t)) : exportsOf sends = [] := by
  induction calls generalizing s t sends with
  | done =>
    cases h
    rfl
  | throws message => cases h
  | send port message next ih =>
    obtain ⟨⟨rest, u⟩, hrest, h⟩ := bind_eq_ok.mp h
    cases h
    show exportsOf rest = []
    exact ih _ hrest
  | noteExport update next ih => exact ih h
  | endCrank next ih =>
    obtain ⟨⟨flushed, u⟩, hflush, h⟩ := bind_eq_ok.mp h
    obtain ⟨⟨rest, v⟩, hrest, h⟩ := bind_eq_ok.mp h
    cases h
    obtain ⟨rfl, rfl⟩ := exportsOf_flush hflush
    exact ih hrest

end Exports

end AgoricSdk.CosmicSwingset
