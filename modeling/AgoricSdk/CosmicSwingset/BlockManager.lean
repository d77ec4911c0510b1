import AgoricSdk.CosmicSwingset.Downcalls

/-!
The block manager of a chain node. It launches the kernel from the swing-store, and the
chain sends it actions: one at the start of the process, and for each block when it
begins, ends, is about to be committed by the chain, and has been. A block whose results
are in the swing-store already is replayed by repeating what was sent to the chain.
-/

namespace AgoricSdk.CosmicSwingset

/-- The part of an upgrade plan's info that matters here. -/
structure PlanInfo where
  coreProposals : List String := []
  vatOptionUpdates : List String := []

structure UpgradeDetails where
  /-- The parsed info of the plan. -/
  planInfo : Except String PlanInfo
  coreProposals : List String := []
  vatOptionUpdates : List String := []

/-- What surrounds the block manager: the chain, the blocks it has decided, and the kernel. -/
structure Host (Params Chain : Type) where
  initialHeight : Nat
  initialHeight_pos : 0 < initialHeight
  /-- The height in the action that starts the process before the first block. -/
  genesisHeight : Nat
  blockTime : Nat → Nat
  /-- The parsed parameters of a block. -/
  params : Nat → Except String Params
  upgradeDetails : Nat → Option UpgradeDetails
  /-- The chain after its genesis. -/
  genesis : Chain
  /-- The chain begins a block. -/
  beginBlock : Nat → Chain → Chain
  /-- The chain delivers the transactions of a block. -/
  deliverTxs : Nat → Chain → Chain
  agccSend : Chain → ChainSend → Chain × String
  /-- The core proposals of the config with which the kernel is initialized. -/
  coreProposals : List String
  /-- Does this software modify the kernel when it finds it in this state? -/
  upgradeModifies : History Params → Bool
  /-- The code to evaluate, by key. -/
  extractCodeSteps : List String → Except String (List (String × String))
  /-- What the kernel does on an input. -/
  react : History Params → KernelInput Params → Downcalls

/-- The swing-store, with the `host.` keys of the block manager. -/
structure SwingStore (Params : Type) where
  history : History Params := []
  pendingExports : List ExportUpdate := []
  height : Option Nat := none
  beginHeight : Option Nat := none
  chainSends : Option (List SavedChainSend) := none

/-- A running process, with the open transactions of the swing-store and of the chain. -/
structure BlockManager (Params Chain : Type) where
  savedHeight : Nat := 0
  savedBeginHeight : Nat := 0
  allowExportCallback : Bool := false
  blockParams : Option Params := none
  runThisBlock : List ForcedAction := []
  savedChainSends : List SavedChainSend := []
  bootstrapCoreProposals : List String := []
  kernelHasUpgradeEvents : Bool := false
  pendingCommitKit : Bool := false
  store : SwingStore Params
  chain : Chain
  /-- What the chain was sent since its last commit. -/
  received : List SavedChainSend := []
  /-- The saved sends of an earlier block that are still in the record. -/
  inherited : List SavedChainSend := []

variable {Params Chain : Type} (host : Host Params Chain)

def insist (p : Prop) [Decidable p] (message : String) : Except String Unit :=
  if p then pure () else throw message

/-- Do something to the kernel, and record what it sends. -/
def execute (input : KernelInput Params) (m : BlockManager Params Chain) :
    Except String (BlockManager Params Chain) := do
  let calls : CallState Chain := { chain := m.chain, pendingExports := m.store.pendingExports }
  let (sends, calls) ←
    (host.react m.store.history input).run host.agccSend m.allowExportCallback calls
  let history := m.store.history ++ [{ input, sends }]
  let store := { m.store with history, pendingExports := calls.pendingExports }
  let savedChainSends := m.savedChainSends ++ sends
  let received := m.received ++ sends
  return { m with store, chain := calls.chain, savedChainSends, received }

section Launch

def initializeSwingset (m : BlockManager Params Chain) :
    Except String (BlockManager Params Chain) :=
  if m.store.history = [] then
    execute host .initializeSwingset { m with bootstrapCoreProposals := host.coreProposals }
  else pure m

def upgradeSwingset (m : BlockManager Params Chain) : Except String (BlockManager Params Chain) :=
  if host.upgradeModifies m.store.history then
    execute host .upgradeSwingset { m with kernelHasUpgradeEvents := true }
  else pure m

/-- The sends recorded meanwhile give way to those that were saved. -/
def launch (store : SwingStore Params) (chain : Chain) :
    Except String (BlockManager Params Chain) := do
  let m ← initializeSwingset host { store, chain }
  let m ← upgradeSwingset host m
  let savedHeight := store.height.getD 0
  let savedBeginHeight := store.beginHeight.getD savedHeight
  let savedChainSends := store.chainSends.getD []
  return { m with savedHeight, savedBeginHeight, savedChainSends, inherited := savedChainSends }

end Launch

section Actions

def blockNeedsExecution (m : BlockManager Params Chain) (blockHeight : Nat) :
    Except String Bool :=
  if m.savedHeight = 0 then pure true
  else if blockHeight = m.savedHeight + 1 then pure true
  else if blockHeight = m.savedHeight then pure false
  else throw s!"Unimplemented reset state from {m.savedHeight} to {blockHeight}"

def saveBeginHeight (blockHeight : Nat) (m : BlockManager Params Chain) :
    BlockManager Params Chain :=
  let store := { m.store with beginHeight := some blockHeight }
  { m with savedBeginHeight := blockHeight, store }

def doVatOptionUpdates (isBootstrap : Bool) (upgradeDetails : Option UpgradeDetails)
    (updates : List String) (m : BlockManager Params Chain) :
    Except String (BlockManager Params Chain) :=
  if updates = [] then pure m
  else do
    insist (upgradeDetails.isSome ∧ isBootstrap = false)
      "vat option updates are only supported during a software upgrade, not chain bootstrap"
    execute host (.applyVatOptionUpdates updates) m

def doBootstrap (blockHeight : Nat) (m : BlockManager Params Chain) :
    Except String (BlockManager Params Chain) := do
  insist (m.savedHeight = 0 ∧ m.savedBeginHeight = 0)
    s!"Cannot run a bootstrap block at height {m.savedHeight}"
  let params ← host.params blockHeight
  let m := saveBeginHeight m.savedBeginHeight m
  execute host (.bootstrapBlock blockHeight (host.blockTime blockHeight) params) m

def doUpgradeEvents (blockHeight : Nat) (consensusStart : Prop) [Decidable consensusStart]
    (m : BlockManager Params Chain) : Except String (BlockManager Params Chain) :=
  if m.kernelHasUpgradeEvents then do
    insist consensusStart "Unexpected kernel upgrade events outside of consensus start"
    return { m with runThisBlock := m.runThisBlock ++ [.kernelUpgradeEvents blockHeight] }
  else pure m

def doCoreProposals (blockHeight : Nat) (consensusStart : Prop) [Decidable consensusStart]
    (coreProposals : List String) (m : BlockManager Params Chain) :
    Except String (BlockManager Params Chain) :=
  if coreProposals = [] then pure m
  else do
    insist consensusStart "Unexpected core proposals outside of consensus start"
    let m := saveBeginHeight m.savedBeginHeight m
    let codeSteps ← host.extractCodeSteps coreProposals
    let m ← execute host (.installBundles coreProposals) m
    let coreEvals := codeSteps.map fun step => ForcedAction.coreEval blockHeight step.1 step.2
    return { m with runThisBlock := m.runThisBlock ++ coreEvals }

/-- AG_COSMOS_INIT -/
def cosmosInit (blockHeight : Nat) (isBootstrap : Bool) (upgradeDetails : Option UpgradeDetails)
    (m : BlockManager Params Chain) : Except String (BlockManager Params Chain) := do
  let m := { m with allowExportCallback := true }
  let needsExecution ← blockNeedsExecution m blockHeight
  if ¬ needsExecution then return m
  let planInfo ← upgradeDetails.elim (pure {}) UpgradeDetails.planInfo
  let consensusStart := isBootstrap = true ∨ upgradeDetails.isSome
  let m ← doVatOptionUpdates host isBootstrap upgradeDetails
    (upgradeDetails.elim [] UpgradeDetails.vatOptionUpdates ++ planInfo.vatOptionUpdates) m
  let m ← (if isBootstrap then doBootstrap host blockHeight m else pure m)
  let m ← doUpgradeEvents blockHeight consensusStart m
  doCoreProposals host blockHeight consensusStart (m.bootstrapCoreProposals ++
    upgradeDetails.elim [] UpgradeDetails.coreProposals ++ planInfo.coreProposals) m

/-- BEGIN_BLOCK -/
def beginBlock (blockHeight : Nat) (m : BlockManager Params Chain) :
    Except String (BlockManager Params Chain) := do
  let params ← host.params blockHeight
  let m := { m with allowExportCallback := true, blockParams := some params }
  let needsExecution ← blockNeedsExecution m blockHeight
  if ¬ needsExecution then return m
  insist (m.savedBeginHeight ≠ blockHeight)
    s!"Inconsistent committed state. Block {blockHeight} had already began execution"
  return saveBeginHeight blockHeight m

/-- Send again what was saved, which must give the same replies. -/
def replaySends : List SavedChainSend → Chain → Except String Chain
  | [], chain => pure chain
  | (msg, expectedRet) :: chainSends, chain => do
    let (chain, actualRet) := host.agccSend chain msg
    insist (actualRet = expectedRet) s!"fatal: replaying chain send resulted in {actualRet}; expected {expectedRet}"
    replaySends chainSends chain

def replayChainSends (m : BlockManager Params Chain) : Except String (BlockManager Params Chain) := do
  let chain ← replaySends host m.savedChainSends m.chain
  return { m with chain, received := m.received ++ m.savedChainSends, inherited := [] }

/-- END_BLOCK -/
def endBlock (blockHeight : Nat) (m : BlockManager Params Chain) :
    Except String (BlockManager Params Chain) := do
  match m.blockParams with
  | none => throw "blockParams missing"
  | some params =>
    let needsExecution ← blockNeedsExecution m blockHeight
    if ¬ needsExecution then replayChainSends host m
    else
      insist (blockHeight = m.savedBeginHeight)
        s!"Inconsistent committed state. Trying to end block {blockHeight}, expected began block {m.savedBeginHeight}"
      let input := .endBlock blockHeight (host.blockTime blockHeight) params m.runThisBlock
      let m ← execute host input m
      let m ← execute host .saveChainState { m with runThisBlock := [] }
      return { m with savedHeight := blockHeight }

/-- Commit the swing-store, with the height and the sends that were recorded. -/
def saveOutsideState (blockHeight : Nat) (m : BlockManager Params Chain) :
    Except String (BlockManager Params Chain) := do
  let allowExportCallback := false
  let store := { m.store with height := some blockHeight, chainSends := some m.savedChainSends }
  let calls : CallState Chain := { chain := m.chain, pendingExports := store.pendingExports }
  let (_, calls) ← flushPendingExports host.agccSend allowExportCallback calls
  let store := { store with pendingExports := calls.pendingExports }
  return { m with allowExportCallback, savedChainSends := [], store, chain := calls.chain }

/-- COMMIT_BLOCK -/
def commitBlock (blockHeight : Nat) (m : BlockManager Params Chain) :
    Except String (BlockManager Params Chain) := do
  insist (blockHeight = m.savedHeight)
    s!"Committed height {blockHeight} does not match saved height {m.savedHeight}"
  insist (m.runThisBlock = []) "We didn't process all \"run this block\" actions"
  let m ← saveOutsideState host blockHeight m
  return { m with blockParams := none, pendingCommitKit := true }

/-- AFTER_COMMIT_BLOCK -/
def afterCommitBlock (m : BlockManager Params Chain) :
    Except String (BlockManager Params Chain) := do
  insist (m.pendingCommitKit = true) "no pendingCommitKit"
  return { m with pendingCommitKit := false }

end Actions

end AgoricSdk.CosmicSwingset
