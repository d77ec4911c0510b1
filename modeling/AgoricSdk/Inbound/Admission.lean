import AgoricSdk.Lib.Transition

/-!
Admission to the inbound queue. At the start of a block the keeper turns the limit of the queue
into an allowance. A decorator compares the allowance with the length of the queue before a
transaction is delivered, or taken into the mempool. A delivered transaction enqueues its
actions.
-/

namespace AgoricSdk.Inbound

variable {α : Type}

section Types

def queueInbound : String := "inbound"

def queueInboundMempool : String := "inbound_mempool"

structure QueueSize where
  key : String
  size : Int32
  deriving DecidableEq

def queueSizeEntry (qs : List QueueSize) (key : String) : Option Int32 :=
  (qs.find? fun q => q.key = key).map QueueSize.size

structure Params where
  queueMax : List QueueSize

/-- The swingset state. -/
structure State where
  queueAllowed : List QueueSize

/-- The messages of a transaction. A bundle is installed at once or announced in chunks, and a
chunk may be the last of its bundle. Other messages are not for the controller. -/
inductive Msg (α : Type) where
  | deliverInbound
  | walletAction (owner : α)
  | walletSpendAction (owner : α)
  | provision
  | installBundle (whole : Bool)
  | sendChunk (last : Bool)
  | other
  deriving DecidableEq

inductive Action (α : Type) where
  | deliverInbound
  | walletAction (owner : α)
  | walletSpendAction (owner : α)
  | provision
  | autoProvision (owner : α)
  | installBundle
  deriving DecidableEq

inductive InboundError where
  | queueSizeTooBig (size : ℕ)
  | couldNotFindMax
  | inboundQueueFull
  deriving DecidableEq

end Types

section Keeper

/-- What the keeper reads and writes. The two queues together are the inbound queue. -/
structure Keeper (α : Type) where
  params : Params
  state : State := ⟨[]⟩
  highPriorityQueue : List (Action α) := []
  actionQueue : List (Action α) := []
  highPrioritySenders : α → Bool
  provisioned : α → Bool

/-- The number of actions in both queues. -/
def Keeper.size (k : Keeper α) : ℕ := k.highPriorityQueue.length + k.actionQueue.length

def Keeper.inboundQueueLength (k : Keeper α) : Except InboundError Int32 :=
  if 2 ^ 63 ≤ k.size then .error (.queueSizeTooBig k.size)
  else if 2 ^ 31 - 1 < k.size then .ok Int32.maxValue
  else .ok (Int32.ofNat k.size)

/-- What is left of a limit. -/
def remaining (max size : Int32) : Int32 := if size < max then max - size else 0

def Keeper.updateQueueAllowed (k : Keeper α) : Except InboundError (Keeper α) :=
  match queueSizeEntry k.params.queueMax queueInbound with
  | none => .error .couldNotFindMax
  | some inboundQueueMax => do
    let inboundMempoolQueueMax := inboundQueueMax / 2
    let inboundQueueSize ← k.inboundQueueLength
    .ok { k with state.queueAllowed :=
      [⟨queueInbound, remaining inboundQueueMax inboundQueueSize⟩,
        ⟨queueInboundMempool, remaining inboundMempoolQueueMax inboundQueueSize⟩] }

def Msg.getInboundMsgCount : Msg α → Int32
  | .other => 0
  | _ => 1

def Keeper.isPriorityMessage (k : Keeper α) : Msg α → Bool
  | .walletSpendAction owner => k.highPrioritySenders owner
  | _ => false

end Keeper

section Ante

def maxInboundPerTx : Int32 := 1

def Keeper.allowedInbound (k : Keeper α) (isCheckTx : Bool) : Except InboundError Int32 :=
  let entry := if isCheckTx then queueInboundMempool else queueInbound
  match queueSizeEntry k.state.queueAllowed entry with
  -- If the number of allowed entries is not given, fail closed.
  | none => .ok 0
  | some allowed => do
    let actions ← k.inboundQueueLength
    if allowed ≤ actions then .ok 0
    else
      let allowed := allowed - actions
      if maxInboundPerTx < allowed then .ok maxInboundPerTx else .ok allowed

/-- The loop over the messages. The allowance is looked up at the first message that needs it,
and is -1 before. -/
def Keeper.anteMsgs (k : Keeper α) (isCheckTx : Bool) :
    Int32 → List (Msg α) → Except InboundError Unit
  | _, [] => .ok ()
  | inboundsAllowed, msg :: msgs =>
    let inbounds := msg.getInboundMsgCount
    if inbounds = 0 then k.anteMsgs isCheckTx inboundsAllowed msgs
    else
      match if inboundsAllowed = -1 then k.allowedInbound isCheckTx else .ok inboundsAllowed with
      | .error err => .error err
      | .ok inboundsAllowed =>
        if inbounds ≤ inboundsAllowed then
          k.anteMsgs isCheckTx (inboundsAllowed - inbounds) msgs
        else if k.isPriorityMessage msg then k.anteMsgs isCheckTx 0 msgs
        else .error .inboundQueueFull

def Keeper.anteHandle (k : Keeper α) (isCheckTx : Bool) (tx : List (Msg α)) :
    Except InboundError Unit :=
  k.anteMsgs isCheckTx (-1) tx

end Ante

section Delivery

def Keeper.routeAction (k : Keeper α) (msg : Msg α) (action : Action α) : Keeper α :=
  if k.isPriorityMessage msg then
    { k with highPriorityQueue := k.highPriorityQueue ++ [action] }
  else { k with actionQueue := k.actionQueue ++ [action] }

/-- Provisioning is not guaranteed to succeed, and is asked for until the wallet is there. -/
def Keeper.provisionIfNeeded (k : Keeper α) (owner : α) : Keeper α :=
  if k.provisioned owner then k else k.routeAction .provision (.autoProvision owner)

def Keeper.handle (k : Keeper α) : Msg α → Keeper α
  | .deliverInbound => k.routeAction .deliverInbound .deliverInbound
  | .walletAction owner =>
    (k.provisionIfNeeded owner).routeAction (.walletAction owner) (.walletAction owner)
  | .walletSpendAction owner =>
    (k.provisionIfNeeded owner).routeAction (.walletSpendAction owner) (.walletSpendAction owner)
  | .provision => k.routeAction .provision .provision
  | .installBundle whole =>
    if whole then k.routeAction (.installBundle whole) .installBundle else k
  | .sendChunk last => if last then k.routeAction (.installBundle true) .installBundle else k
  | .other => k

def Keeper.handleAll (k : Keeper α) (tx : List (Msg α)) : Keeper α := tx.foldl Keeper.handle k

end Delivery

section Blocks

/-- The state of the chain during a block, and the number of actions left over when it began. -/
structure Block (α : Type) where
  keeper : Keeper α
  leftover : ℕ

/-- A transaction that was delivered or checked, and the keeper before and after it. -/
structure Verdict (α : Type) where
  tx : List (Msg α)
  before : Keeper α
  admitted : Bool
  after : Keeper α

/-- Between blocks the state of the chain is that of the last block, which transactions are
checked against. The last two fields tell what has happened. -/
structure Chain (α : Type) where
  block : Block α
  inBlock : Bool := false
  committed : Option (Block α) := none
  deliveries : List (Verdict α) := []
  checks : List (Verdict α) := []

/-- The messages of an admitted transaction may fail, which reverts the transaction. At the end
of a block some actions are taken from the queues, and what is known of the owners may change. -/
inductive ChainEvent (α : Type) where
  | beginBlock
  | deliverTx (tx : List (Msg α)) (fails : Bool)
  | checkTx (tx : List (Msg α))
  | endBlock (highPriority actions : ℕ) (highPrioritySenders provisioned : α → Bool)

def deliver (k : Keeper α) (tx : List (Msg α)) (fails : Bool) : Verdict α :=
  match k.anteHandle false tx with
  | .error _ => { tx, before := k, admitted := false, after := k }
  | .ok () => { tx, before := k, admitted := true, after := if fails then k else k.handleAll tx }

def check (k : Keeper α) (tx : List (Msg α)) : Verdict α :=
  { tx, before := k, admitted := (k.anteHandle true tx).isOk, after := k }

def chainStep (c : Chain α) : ChainEvent α → Option (Chain α)
  | .beginBlock =>
    if c.inBlock then none
    else
      match c.block.keeper.updateQueueAllowed with
      | .error _ => none
      | .ok keeper => some { c with block := ⟨keeper, c.block.keeper.size⟩, inBlock := true }
  | .deliverTx tx fails =>
    if c.inBlock then
      let verdict := deliver c.block.keeper tx fails
      some { c with
        block.keeper := verdict.after
        deliveries := c.deliveries ++ [verdict] }
    else none
  | .checkTx tx =>
    match c.committed with
    | none => none
    | some block => some { c with checks := c.checks ++ [check block.keeper tx] }
  | .endBlock highPriority actions highPrioritySenders provisioned =>
    if c.inBlock then
      let k := c.block.keeper
      let block : Block α := { c.block with keeper := { k with
        highPriorityQueue := k.highPriorityQueue.drop highPriority
        actionQueue := k.actionQueue.drop actions
        highPrioritySenders, provisioned } }
      some { c with block, inBlock := false, committed := some block }
    else none

def inboundChain (α : Type) : TransitionSystem (Chain α) (ChainEvent α) where
  init c := ∃ keeper : Keeper α, c = { block := ⟨keeper, 0⟩ }
  step := chainStep

end Blocks

end AgoricSdk.Inbound
