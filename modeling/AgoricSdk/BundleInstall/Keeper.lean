import AgoricSdk.Lib.Program
import AgoricSdk.Lib.Table
import AgoricSdk.BundleInstall.Messages

/-!
The chunked installs that wait for their chunks, as the keeper stores them: the
install messages, their nodes in a doubly linked list by age, the chunks that
arrived, and the ends of the list. The message handlers and the pruning of
expired installs work on this state.
-/

namespace AgoricSdk.BundleInstall

open StateProgram

/-- The ends of the list, zero when it is empty, and the last identifier given out. -/
structure State where
  firstChunkedArtifactId : Nat := 0
  lastChunkedArtifactId : Nat := 0
  nextChunkedArtifactId : Nat := 0
  deriving DecidableEq

structure ChunkedArtifactNode where
  chunkedArtifactId : Nat := 0
  nextId : Nat := 0
  prevId : Nat := 0
  startTimeUnix : Int := 0
  startBlockHeight : Int := 0
  deriving DecidableEq

structure KeeperState where
  params : Params
  state : State := {}
  pending : Table Nat MsgInstallBundle := ∅
  nodes : Table Nat ChunkedArtifactNode := ∅
  chunkData : Table (Nat × Nat) Bytes := ∅
  /-- The install actions pushed for the controller. -/
  actions : List MsgInstallBundle := []

/-- The block that a call runs in. -/
structure Context where
  blockTime : Int
  blockHeight : Int
  deriving DecidableEq

/-- Code that the keeper calls: the hash, the expansion of at most so many bytes
of compressed data, and the error of the action queue, if it has one. -/
structure Services where
  sha512Sum : Bytes → Bytes
  gunzip : Bytes → Int → Except String Bytes
  pushAction : List MsgInstallBundle → MsgInstallBundle → Option String

abbrev Keeper (α : Type) := EStateM BundleError KeeperState α

def getState : Keeper State := do
  return (← get).state

def setState (state : State) : Keeper Unit := modify fun s => { s with state }

section Lists

/-- `ListTools.Fetch` -/
def fetch (id : Nat) : Keeper (Option ChunkedArtifactNode) := do
  return (← get).nodes.lookup id

/-- `ListTools.Store` -/
def store (id : Nat) (node : ChunkedArtifactNode) : Keeper Unit :=
  modify fun s => { s with nodes := s.nodes.insert id node }

/-- `ListTools.Delete` -/
def delete (id : Nat) : Keeper Unit := modify fun s => { s with nodes := s.nodes.erase id }

/-- Change a node that must be there. -/
def updateNode (id : Nat) (op : String) (mutate : ChunkedArtifactNode → ChunkedArtifactNode) :
    Keeper Unit := do
  match ← fetch id with
  | none => throw (.missingNode id op)
  | some node => store id (mutate node)

/-- Remove a node from the list, keeping the structure intact. -/
def unlink (victim : ChunkedArtifactNode) (updateEnds : Option Nat → Option Nat → Keeper Unit) :
    Keeper Unit := do
  if victim.prevId = 0 ∨ victim.nextId = 0 then
    -- The first node in the list gives way to its successor, the last to its predecessor.
    let first := if victim.prevId = 0 then some victim.nextId else none
    let last := if victim.nextId = 0 then some victim.prevId else none
    updateEnds first last
  if victim.prevId ≠ 0 then
    updateNode victim.prevId "unlink prev" fun prevNode => { prevNode with nextId := victim.nextId }
  if victim.nextId ≠ 0 then
    updateNode victim.nextId "unlink next" fun nextNode => { nextNode with prevId := victim.prevId }

def removeChunkedArtifactNode (id : Nat) : Keeper Unit := do
  match ← fetch id with
  | none => throw (.missingNode id "unlink")
  | some victim =>
    unlink victim fun first last => do
      let state ← getState
      setState { state with
        firstChunkedArtifactId := first.getD state.firstChunkedArtifactId
        lastChunkedArtifactId := last.getD state.lastChunkedArtifactId }
    delete id

end Lists

def getPendingChunkData (id index : Nat) : Keeper Bytes := do
  return ((← get).chunkData.lookup (id, index)).getD []

/-- Empty data is no data. -/
def setPendingChunkData (id index : Nat) (data : Bytes) : Keeper Unit :=
  modify fun s => { s with
    chunkData := if data.isEmpty then s.chunkData.erase (id, index)
      else s.chunkData.insert (id, index) data }

def getPendingBundleInstall (id : Nat) : Keeper (Option MsgInstallBundle) := do
  return (← get).pending.lookup id

/-- Store a pending install, or remove it with its chunks and its node. -/
def setPendingBundleInstall (id : Nat) (newMsg : Option MsgInstallBundle) : Keeper Unit := do
  match newMsg with
  | some msg => modify fun s => { s with pending := s.pending.insert id msg }
  | none =>
    let msg := ((← get).pending.lookup id).getD {}
    match msg.chunkedArtifact with
    | some ca => (List.range ca.chunks.length).forM fun i => setPendingChunkData id i []
    | none => pure ()
    modify fun s => { s with pending := s.pending.erase id }
    removeChunkedArtifactNode id

def addPendingBundleInstall (ctx : Context) (msg : MsgInstallBundle) : Keeper Nat := do
  let state ← getState
  -- Legacy state predates the monotonic counter.
  let next := max state.nextChunkedArtifactId state.lastChunkedArtifactId
  let id := next + 1
  let state := { state with nextChunkedArtifactId := id }
  let node : ChunkedArtifactNode :=
    { chunkedArtifactId := id
      startTimeUnix := ctx.blockTime
      startBlockHeight := ctx.blockHeight }
  if state.firstChunkedArtifactId = 0 then
    if state.lastChunkedArtifactId ≠ 0 then
      throw (.inconsistentList state.lastChunkedArtifactId)
    setState { state with firstChunkedArtifactId := id, lastChunkedArtifactId := id }
    setPendingBundleInstall id (some msg)
    store id node
    return id
  else
    let prevId := state.lastChunkedArtifactId
    if prevId = 0 then throw .missingLast
    updateNode prevId "add" fun prevNode => { prevNode with nextId := id }
    setState { state with lastChunkedArtifactId := id }
    setPendingBundleInstall id (some msg)
    store id { node with prevId }
    return id

section Prune

/-- Whether a pending install has not passed its deadline; a negative deadline
is no deadline. -/
def alive (params : Params) (ctx : Context) (node : ChunkedArtifactNode) : Bool :=
  (params.installationDeadlineSeconds < 0 ||
    ctx.blockTime - node.startTimeUnix < params.installationDeadlineSeconds) &&
  (params.installationDeadlineBlocks < 0 ||
    ctx.blockHeight - node.startBlockHeight < params.installationDeadlineBlocks)

/-- Remove installs from the front of the list up to one that is still alive. -/
def pruneLoop (params : Params) (ctx : Context) : Nat → State → Keeper State
  | 0, _ => throw .endless
  | fuel + 1, state => do
    if state.firstChunkedArtifactId = 0 then return state
    let id := state.firstChunkedArtifactId
    let node := ((← get).nodes.lookup id).getD {}
    if alive params ctx node then return state
    setPendingBundleInstall id none
    pruneLoop params ctx fuel { state with
      firstChunkedArtifactId := node.nextId
      lastChunkedArtifactId := if node.nextId = 0 then 0 else state.lastChunkedArtifactId }

def pruneExpiredBundleInstalls (ctx : Context) : Keeper Unit := do
  let params := (← get).params
  let state ← getState
  let state ← pruneLoop params ctx ((← get).nodes.size + 1) state
  setState state

end Prune

section Handlers

variable (services : Services)

/-- Expand a compressed bundle to exactly the size announced. -/
def MsgInstallBundle.decompressed (msg : MsgInstallBundle) : Except BundleError MsgInstallBundle :=
  if !msg.bundle.isEmpty then .ok msg
  else match services.gunzip msg.compressedBundle (msg.uncompressedSize + 1) with
    | .error err => .error (.uncompress err)
    | .ok buf =>
      if (buf.length : Int) ≠ msg.uncompressedSize then .error .uncompressedSizeWrong
      else .ok { msg with bundle := buf, compressedBundle := [], uncompressedSize := 0 }

def pushAction (msg : MsgInstallBundle) : Keeper Unit := do
  match services.pushAction (← get).actions msg with
  | some err => throw (.pushAction err)
  | none => modify fun s => { s with actions := s.actions ++ [msg] }

def installFinishedBundle (msg : MsgInstallBundle) : Keeper Unit := do
  let msg ← MonadExcept.ofExcept (msg.decompressed services)
  MonadExcept.ofExcept msg.validateBasic
  pushAction services msg

/-- Mark the chunks as in flight; their states must be unspecified. -/
def markInFlight : List ChunkInfo → Nat → Except BundleError (List ChunkInfo)
  | [], _ => .ok []
  | chunk :: chunks, i =>
    if chunk.state ≠ .unspecified then .error (.chunkStateNotUnspecified i)
    else match markInFlight chunks (i + 1) with
      | .error err => .error err
      | .ok rest => .ok ({ chunk with state := .inFlight } :: rest)

/-- The identifier of the install that waits for its chunks, or zero. -/
def installBundle (ctx : Context) (msg : MsgInstallBundle) : Keeper Nat := do
  MonadExcept.ofExcept (validateMsgInstallBundle (← get).params msg)
  match msg.chunkedArtifact with
  | none =>
    installFinishedBundle services msg
    return 0
  | some ca =>
    if ca.chunks.isEmpty then
      installFinishedBundle services msg
      return 0
    let chunks ← MonadExcept.ofExcept (markInFlight ca.chunks 0)
    addPendingBundleInstall ctx { msg with chunkedArtifact := some { ca with chunks } }

/-- Hand the bundle over once all its chunks are there. -/
def maybeFinalizeBundle (id : Nat) : Keeper Unit := do
  match ← getPendingBundleInstall id with
  | none => return
  | some msg =>
    match msg.chunkedArtifact with
    | none => throw .nilArtifact
    | some ca =>
      if !ca.chunks.all fun chunk => chunk.state = .received then return
      let parts ← (List.range ca.chunks.length).mapM fun i => getPendingChunkData id i
      let chunkData := parts.flatten
      let actualSha512 := services.sha512Sum chunkData
      match decodeHex ca.sha512 with
      | none => throw (.cannotDecodeHash ca.sha512)
      | some expectedSha512 =>
        if expectedSha512 ≠ actualSha512 then
          throw (.bundleHashMismatch expectedSha512 actualSha512)
        let msg := if msg.uncompressedSize > 0 then { msg with compressedBundle := chunkData }
          else { msg with bundle := chunkData }
        setPendingBundleInstall id none
        installFinishedBundle services { msg with chunkedArtifact := none }

/-- The checks of a chunk against what its install announced. -/
def checkChunk (msg : MsgSendChunk) (inst : Option MsgInstallBundle) :
    Except BundleError (MsgInstallBundle × ChunkedArtifact × ChunkInfo) :=
  match inst with
  | none => .error (.noUpload msg.chunkedArtifactId)
  | some inst =>
    match inst.chunkedArtifact with
    | none => .error .nilArtifact
    | some ca =>
      match ca.chunks[msg.chunkIndex]? with
      | none => .error (.chunkIndexOutOfRange msg.chunkIndex msg.chunkedArtifactId)
      | some ci =>
        if ci.state ≠ .inFlight then
          .error (.chunkNotInFlight msg.chunkIndex msg.chunkedArtifactId)
        else if ci.sizeBytes ≠ msg.chunkData.length then
          .error (.chunkSizeMismatch msg.chunkIndex msg.chunkedArtifactId)
        else match decodeHex ci.sha512 with
          | none => .error (.cannotDecodeChunkHash msg.chunkIndex ci.sha512)
          | some expectedSha512 =>
            let actualSha512 := services.sha512Sum msg.chunkData
            if expectedSha512.length ≠ sha512Size then
              .error (.chunkHashLengthMismatch msg.chunkIndex sha512Size expectedSha512.length)
            else if actualSha512 ≠ expectedSha512 then
              .error (.chunkHashMismatch msg.chunkIndex expectedSha512 actualSha512)
            else .ok (inst, ca, ci)

def sendChunk (msg : MsgSendChunk) : Keeper Unit := do
  MonadExcept.ofExcept (validateMsgSendChunk (← get).params msg)
  let inst ← getPendingBundleInstall msg.chunkedArtifactId
  let (inst, ca, ci) ← MonadExcept.ofExcept (checkChunk services msg inst)
  -- Data is valid, so store it.
  setPendingChunkData msg.chunkedArtifactId msg.chunkIndex msg.chunkData
  let chunks := ca.chunks.set msg.chunkIndex { ci with state := .received }
  setPendingBundleInstall msg.chunkedArtifactId
    (some { inst with chunkedArtifact := some { ca with chunks } })
  maybeFinalizeBundle services msg.chunkedArtifactId

end Handlers

end AgoricSdk.BundleInstall
