import AgoricSdk.Lib.Program
import AgoricSdk.Lib.Table

/-!
One machine of a pair that talk through mailboxes: the mailbox state which the
host exports, the mailbox device, and the VatTP vat, which keeps the numbers of
the messages it sent, removed and delivered.
-/

namespace AgoricSdk.VatTP

open StateProgram

abbrev Body := String

/-- The receiver that a vat gives to `setReceiver`. -/
abbrev ReceiverId := Nat

/-- The largest number that `Nat` accepts. -/
def maxSafeInteger : Nat := 2 ^ 53 - 1

structure Mailbox where
  ack : Nat := 0
  outbox : Table Nat Body := ∅

structure MailboxExport where
  ack : Nat := 0
  outbox : List (Nat × Body) := []
  deriving DecidableEq

def exportMailbox (inout : Mailbox) : MailboxExport where
  ack := inout.ack
  outbox := inout.outbox.pairs.insertionSort fun a b => a.1 ≤ b.1

/-- The state of the vat's durable mailbox for one remote. -/
structure MailboxState where
  outboundHighestAdded : Nat := 0
  outboundHighestRemoved : Nat := 0
  inboundHighestDelivered : Nat := 0
  inboundReceiver : Option ReceiverId := none
  deriving DecidableEq

structure Vat where
  /-- Whether the baggage holds the mailbox device. -/
  baggageDevice : Bool := false
  /-- Whether the variable `mailboxDevice` does. -/
  mailboxDevice : Bool := false
  mailboxes : Table String MailboxState := ∅
  /-- The remotes whose facets `addRemote` returned. -/
  remotes : List String := []

/-- A call from the device that waits in the kernel's run-queue. -/
inductive InboundCall where
  | deliverInboundMessages (name : String) (newMessages : List (Nat × Body))
  | deliverInboundAck (name : String) (ack : Nat)
  deriving DecidableEq

structure Machine where
  vat : Vat := {}
  /-- Whether the device has an inbound handler. -/
  inboundHandler : Bool := false
  mailboxState : Table String Mailbox := ∅
  runQueue : List InboundCall := []
  /-- The bodies passed to the receivers so far, each with the remote it is from. -/
  received : List (String × Body) := []

inductive VatTPError where
  | notADevice
  | unsafeInteger (num : Nat)
  | noSuchMailbox (name : String)
  | setReceiverOnce
  | alreadyHaveRemote (name : String)
  | handlerNotRegistered
  deriving DecidableEq

abbrev M (α : Type) := EStateM VatTPError Machine α

section Device

/-- `Nat` of a number that is not negative. -/
def checkNat (num : Nat) : M Unit :=
  if num ≤ maxSafeInteger then pure () else throw (.unsafeInteger num)

def setPeer (peer : String) (inout : Mailbox) : M Unit :=
  modify fun m => { m with mailboxState := m.mailboxState.insert peer inout }

def getOrCreatePeer (peer : String) : M Mailbox := do
  match (← get).mailboxState.lookup peer with
  | some inout => return inout
  | none =>
    setPeer peer {}
    return {}

def deviceAdd (peer : String) (msgnum : Nat) (body : Body) : M Unit := do
  checkNat msgnum
  let inout ← getOrCreatePeer peer
  setPeer peer { inout with outbox := inout.outbox.insert msgnum body }

def deviceRemove (peer : String) (msgnum : Nat) : M Unit := do
  checkNat msgnum
  let inout ← getOrCreatePeer peer
  setPeer peer { inout with outbox := inout.outbox.erase msgnum }

def deviceAckInbound (peer : String) (msgnum : Nat) : M Unit := do
  checkNat msgnum
  let inout ← getOrCreatePeer peer
  setPeer peer { inout with ack := msgnum }

def sendOnly (call : InboundCall) : M Unit := do
  if (← get).inboundHandler then
    modify fun m => { m with runQueue := m.runQueue ++ [call] }
  else throw .handlerNotRegistered

/-- `inboundCallback`, which the host calls with what it was told of a peer. -/
def deliverInbound (peer : String) (messages : List (Nat × Body)) (ack : Nat) : M Unit := do
  messages.forM fun m => checkNat m.1
  checkNat ack
  if messages.isEmpty then pure () else sendOnly (.deliverInboundMessages peer messages)
  sendOnly (.deliverInboundAck peer ack)

end Device

section Vat

/-- `D(mailboxDevice)` -/
def mailboxDevice : M Unit := do
  if (← get).vat.mailboxDevice then pure () else throw .notADevice

def getMailbox (name : String) : M MailboxState := do
  match (← get).vat.mailboxes.lookup name with
  | some state => return state
  | none => throw (.noSuchMailbox name)

def setMailbox (name : String) (state : MailboxState) : M Unit :=
  modify fun m => { m with vat.mailboxes := m.vat.mailboxes.insert name state }

def provideMailbox (name : String) : M MailboxState := do
  if (← get).vat.mailboxes.has name then pure () else setMailbox name {}
  getMailbox name

def transmit (name : String) (msg : Body) : M Unit := do
  let state ← getMailbox name
  let num := state.outboundHighestAdded + 1
  mailboxDevice
  deviceAdd name num msg
  setMailbox name { state with outboundHighestAdded := num }

def setReceiver (name : String) (receiver : ReceiverId) : M Unit := do
  let state ← getMailbox name
  if state.inboundReceiver.isSome then throw .setReceiverOnce
  else setMailbox name { state with inboundReceiver := some receiver }

/-- `E(inboundReceiver).receive(body)`, which reaches no one without a receiver. -/
def receive (name : String) (inboundReceiver : Option ReceiverId) (body : Body) : M Unit :=
  match inboundReceiver with
  | none => pure ()
  | some _ => modify fun m => { m with received := m.received ++ [(name, body)] }

def deliverLoop (name : String) (inboundReceiver : Option ReceiverId) :
    Nat → List (Nat × Body) → M Nat
  | newHighestDelivered, [] => return newHighestDelivered
  | newHighestDelivered, (num, body) :: newMessages =>
    if num > newHighestDelivered then do
      receive name inboundReceiver body
      mailboxDevice
      deviceAckInbound name num
      deliverLoop name inboundReceiver num newMessages
    else deliverLoop name inboundReceiver newHighestDelivered newMessages

def deliverMessages (name : String) (newMessages : List (Nat × Body)) : M Unit := do
  let state ← getMailbox name
  let newHighestDelivered ←
    deliverLoop name state.inboundReceiver state.inboundHighestDelivered newMessages
  if newHighestDelivered > state.inboundHighestDelivered then
    setMailbox name { state with inboundHighestDelivered := newHighestDelivered }

/-- The loop ends before its fuel does, when every message added is removed. -/
def removeLoop (name : String) (outboundHighestAdded ack : Nat) : Nat → Nat → M Nat
  | 0, newHighestRemoved => return newHighestRemoved
  | fuel + 1, newHighestRemoved =>
    if newHighestRemoved < outboundHighestAdded ∧ newHighestRemoved < ack then do
      mailboxDevice
      deviceRemove name (newHighestRemoved + 1)
      removeLoop name outboundHighestAdded ack fuel (newHighestRemoved + 1)
    else return newHighestRemoved

def deliverAck (name : String) (ack : Nat) : M Unit := do
  let state ← getMailbox name
  let newHighestRemoved ← removeLoop name state.outboundHighestAdded ack
    (state.outboundHighestAdded - state.outboundHighestRemoved) state.outboundHighestRemoved
  if newHighestRemoved > state.outboundHighestRemoved then
    setMailbox name { state with outboundHighestRemoved := newHighestRemoved }

def registerMailboxDevice : M Unit :=
  modify fun m => { m with vat.baggageDevice := true, vat.mailboxDevice := true }

def addRemote (name : String) : M Unit := do
  if (← get).vat.mailboxes.has name then throw (.alreadyHaveRemote name)
  else
    let _ ← provideMailbox name
    modify fun m => { m with vat.remotes := m.vat.remotes ++ [name] }

def inboundCall : InboundCall → M Unit
  | .deliverInboundMessages name newMessages => do
    let _ ← provideMailbox name
    deliverMessages name newMessages
  | .deliverInboundAck name ack => do
    let _ ← provideMailbox name
    deliverAck name ack

/-- An upgrade keeps what is durable. -/
def upgrade : M Unit :=
  modify fun m => { m with vat.mailboxDevice := m.vat.baggageDevice }

end Vat

end AgoricSdk.VatTP
