import AgoricSdk.CosmicSwingset.BlockManager
import AgoricSdk.Lib.Transition

/-!
A node that executes the blocks which consensus has decided. The chain and the
swing-store commit one after the other, and the node may crash before any action. It
then starts again from what each of them has committed, and the chain replays the
block that follows its own last commit.
-/

namespace AgoricSdk.CosmicSwingset

/-- What the process has done last. -/
inductive Phase where
  | initialized
  | begun
  | ended
  /-- The swing-store has committed, and the chain is about to. -/
  | committed
  | hostCommitted
  | idle
  deriving DecidableEq

structure Node (Params Chain : Type) where
  /-- The swing-store as committed. -/
  store : SwingStore Params := {}
  /-- The chain as committed, once it has a block. -/
  chain : Chain
  /-- What the chain was sent in each block that it committed. -/
  blocks : List (List SavedChainSend) := []
  running : Option (BlockManager Params Chain × Phase) := none

inductive NodeAction where
  /-- Start the process and send AG_COSMOS_INIT. -/
  | start
  | beginBlock
  | endBlock
  | commitBlock
  /-- The chain commits its own state. -/
  | commitChain
  | afterCommitBlock
  | crash
  deriving DecidableEq

variable {Params Chain : Type} (host : Host Params Chain)

/-- The height of the block that the chain is executing or executes next. -/
def nextHeight (blocks : List (List SavedChainSend)) : Nat := host.initialHeight + blocks.length

/-- An action that throws stops the node. -/
def proceed (s : Node Params Chain) (phase : Phase)
    (result : Except String (BlockManager Params Chain)) : Node Params Chain :=
  match result with
  | .ok m => { s with running := some (m, phase) }
  | .error _ => { s with running := none }

/-- Before its first block the chain starts the process with its genesis; else it has
begun the block for which it starts the process. -/
def startProcess (s : Node Params Chain) : Except String (BlockManager Params Chain) :=
  if s.blocks = [] then do
    let m ← launch host s.store host.genesis
    cosmosInit host host.genesisHeight true none m
  else do
    let height := nextHeight host s.blocks
    let m ← launch host s.store (host.beginBlock height s.chain)
    cosmosInit host height false (host.upgradeDetails height) m

def nodeStep (s : Node Params Chain) : NodeAction → Option (Node Params Chain)
  | .start =>
    match s.running with
    | none => some (proceed s .initialized (startProcess host s))
    | some _ => none
  | .beginBlock =>
    let height := nextHeight host s.blocks
    match s.running with
    | some (m, .initialized) =>
      let chain := if s.blocks = [] then host.beginBlock height m.chain else m.chain
      some (proceed s .begun (beginBlock host height { m with chain }))
    | some (m, .idle) =>
      -- An upgrade needs other software, with which the node starts again.
      if (host.upgradeDetails height).isSome then none
      else
        let chain := host.beginBlock height m.chain
        some (proceed s .begun (beginBlock host height { m with chain }))
    | _ => none
  | .endBlock =>
    let height := nextHeight host s.blocks
    match s.running with
    | some (m, .begun) =>
      let chain := host.deliverTxs height m.chain
      some (proceed s .ended (endBlock host height { m with chain }))
    | _ => none
  | .commitBlock =>
    match s.running with
    | some (m, .ended) =>
      match commitBlock host (nextHeight host s.blocks) m with
      | .ok m => some { s with store := m.store, running := some (m, .committed) }
      | .error _ => some { s with running := none }
    | _ => none
  | .commitChain =>
    match s.running with
    | some (m, .committed) =>
      let blocks := s.blocks ++ [m.received]
      let m' := { m with received := [], inherited := [] }
      some { s with chain := m.chain, blocks, running := some (m', .hostCommitted) }
    | _ => none
  | .afterCommitBlock =>
    match s.running with
    | some (m, .hostCommitted) => some (proceed s .idle (afterCommitBlock m))
    | _ => none
  | .crash =>
    match s.running with
    | some _ => some { s with running := none }
    | none => none

def nodeSystem : TransitionSystem (Node Params Chain) NodeAction where
  init s := s = { chain := host.genesis }
  step := nodeStep host

end AgoricSdk.CosmicSwingset
