import AgoricSdk.Lib.Transition
import AgoricSdk.VatTP.Transfer

/-!
Two machines whose mailboxes a relay joins. The relay may hand to either side
any export of the other that there ever was. In every run in which new messages
meet a mailbox that is ready, each side's receiver is given the messages of the
other exactly once and in order.
-/

namespace AgoricSdk.VatTP

open StateProgram Window

inductive Side where
  | left
  | right
  deriving DecidableEq

def Side.other : Side → Side
  | left => right
  | right => left

@[simp] theorem Side.other_other (s : Side) : s.other.other = s := by cases s <;> rfl

theorem Side.other_ne (s : Side) : s.other ≠ s := by cases s <;> decide

/-- A machine and what happened at its mailbox for the other machine. -/
structure Endpoint where
  machine : Machine := {}
  transmitted : List Body := []
  /-- The exports of the mailbox so far. -/
  exports : List MailboxExport := []
  /-- The exports of the other machine that the relay handed in so far. -/
  handed : List MailboxExport := []

abbrev World := Side → Endpoint

/-- A call to the vat other than those of the device. -/
inductive VatCall where
  | registerMailboxDevice
  | addRemote (name : String)
  | setReceiver (name : String) (receiver : ReceiverId)
  | transmit (name : String) (msg : Body)
  | upgrade
  deriving DecidableEq

inductive Action where
  | registerInboundHandler (s : Side)
  | unregisterInboundHandler (s : Side)
  | call (s : Side) (call : VatCall)
  /-- The kernel delivers the first of the waiting calls. -/
  | crank (s : Side)
  /-- Something is handed in for another remote. -/
  | inbound (s : Side) (peer : String) (messages : List (Nat × Body)) (ack : Nat)
  | export (s : Side)
  /-- The relay hands in an export of the other side. -/
  | relay (s : Side) (i : Nat)
  deriving DecidableEq

/-- The facets for a remote are held from `addRemote` on. -/
def VatCall.callable (m : Machine) : VatCall → Bool
  | .setReceiver name _ | .transmit name _ => name ∈ m.vat.remotes
  | _ => true

def VatCall.program : VatCall → M Unit
  | .registerMailboxDevice => VatTP.registerMailboxDevice
  | .addRemote name => VatTP.addRemote name
  | .setReceiver name receiver => VatTP.setReceiver name receiver
  | .transmit name msg => VatTP.transmit name msg
  | .upgrade => VatTP.upgrade

/-- The body that a call which succeeded sent to the remote. -/
def VatCall.sent (name : String) : VatCall → List Body
  | .transmit n msg => if n = name then [msg] else []
  | _ => []

section System

-- The name under which each machine knows the other.
variable (names : Side → String)

def Endpoint.call (name : String) (e : Endpoint) (call : VatCall) : Endpoint :=
  match call.program e.machine with
  | .ok _ m => { e with machine := m, transmitted := e.transmitted ++ call.sent name }
  | .error _ m => { e with machine := m }

def Endpoint.crank (e : Endpoint) : Option Endpoint :=
  match e.machine.runQueue with
  | [] => none
  | call :: rest =>
    some { e with machine := finalState (inboundCall call) { e.machine with runQueue := rest } }

def Endpoint.relay (name : String) (e : Endpoint) (snapshot : MailboxExport) : Endpoint :=
  match deliverInbound name snapshot.outbox snapshot.ack e.machine with
  | .ok _ m => { e with machine := m, handed := e.handed ++ [snapshot] }
  | .error _ m => { e with machine := m }

def step (w : World) : Action → Option World
  | .registerInboundHandler s =>
    some (Function.update w s { w s with machine.inboundHandler := true })
  | .unregisterInboundHandler s =>
    some (Function.update w s { w s with machine.inboundHandler := false })
  | .call s call =>
    if call.callable (w s).machine then some (Function.update w s ((w s).call (names s) call))
    else none
  | .crank s => (w s).crank.map fun e => Function.update w s e
  | .inbound s peer messages ack =>
    if peer = names s then none
    else some (Function.update w s { w s with
      machine := finalState (deliverInbound peer messages ack) (w s).machine })
  | .export s => some (Function.update w s { w s with
      exports := (w s).exports ++ [exportMailbox ((w s).machine.inout (names s))] })
  | .relay s i =>
    (w s.other).exports[i]?.map fun snapshot =>
      Function.update w s ((w s).relay (names s) snapshot)

def pair : TransitionSystem World Action where
  init w := w = fun _ => {}
  step := step names

/-- New messages from the other machine are delivered to a mailbox that is ready only. -/
def MeetsReady (w : World) : Action → Prop
  | .crank s =>
    match (w s).machine.runQueue with
    | .deliverInboundMessages name messages :: _ => name = names s →
      (∃ e ∈ messages, ((w s).machine.mailbox name).inboundHighestDelivered < e.1) →
        Ready (w s).machine name
    | _ => True
  | _ => True

instance (w : World) (a : Action) : Decidable (MeetsReady names w a) := by
  unfold MeetsReady
  split
  · split <;> infer_instance
  · infer_instance

/-- The messages of the other side, as this side's receiver gets them. -/
structure ExactlyOnce (w : World) (s : Side) : Prop where
  /-- What the receiver was given begins what was transmitted. -/
  inOrder : (w s).machine.receivedFrom (names s) <+: (w s.other).transmitted
  /-- A message that was not delivered is in the outbox. -/
  kept : ∀ k body, ((w s).machine.receivedFrom (names s)).length ≤ k →
    (w s.other).transmitted[k]? = some body →
      ((w s.other).machine.inout (names s.other)).outbox.lookup (k + 1) = some body
  /-- The outbox holds no other numbers than those not removed. -/
  range : ∀ k body, ((w s).machine.inout (names s)).outbox.lookup k = some body →
    ((w s).machine.mailbox (names s)).outboundHighestRemoved < k ∧
      k ≤ ((w s).machine.mailbox (names s)).outboundHighestAdded
  /-- Once the other side's export was handed in and is worked off, all is delivered. -/
  complete : exportMailbox ((w s.other).machine.inout (names s.other)) ∈ (w s).handed →
    (w s).machine.callsFor (names s) = [] →
      (w s).machine.receivedFrom (names s) = (w s.other).transmitted

end System

/-- A side's mailbox and history, against what the other side transmitted and took. -/
structure Linked (name : String) (v : PeerView) (sent : List Body)
    (exports handed : List MailboxExport) (theirs : List Body) (took : Nat) : Prop where
  added : v.mailbox.outboundHighestAdded = sent.length
  safe : sent.length ≤ maxSafeInteger
  removed : v.mailbox.outboundHighestRemoved ≤ took
  tookSent : took ≤ sent.length
  outbox : ∀ k, v.inout.outbox.lookup k =
    if v.mailbox.outboundHighestRemoved < k then sent[k - 1]? else none
  delivered : v.mailbox.inboundHighestDelivered ≤ theirs.length
  theirsSafe : theirs.length ≤ maxSafeInteger
  received : v.received = theirs.take v.mailbox.inboundHighestDelivered
  ack : v.inout.ack = v.mailbox.inboundHighestDelivered
  exported : ∀ snapshot ∈ exports, snapshot.ack ≤ v.mailbox.inboundHighestDelivered ∧
    ∃ low ≤ took, Shows sent low snapshot.outbox
  messages : ∀ ms, .deliverInboundMessages name ms ∈ v.calls →
    ∃ low ≤ v.mailbox.inboundHighestDelivered, Shows theirs low ms
  acks : ∀ k, .deliverInboundAck name k ∈ v.calls → k ≤ took
  workedOff : ∀ snapshot ∈ handed, .deliverInboundMessages name snapshot.outbox ∈ v.calls ∨
    ∀ e ∈ snapshot.outbox, e.1 ≤ v.mailbox.inboundHighestDelivered

section Linked

variable {name : String} {v : PeerView} {sent theirs : List Body}
  {exports handed : List MailboxExport} {took : Nat}

theorem linked_empty (name : String) : Linked name (Machine.view {} name) [] [] [] [] 0 where
  added := rfl
  safe := Nat.zero_le _
  removed := Nat.le_refl _
  tookSent := Nat.le_refl _
  outbox k := by
    rw [List.getElem?_nil, ite_self]
    rfl
  delivered := Nat.le_refl _
  theirsSafe := Nat.zero_le _
  received := rfl
  ack := rfl
  exported := by simp
  messages _ h := by cases h
  acks _ h := by cases h
  workedOff := by simp

theorem Linked.advance (h : Linked name v sent exports handed theirs took) {theirs' : List Body}
    {took' : Nat} (htheirs : theirs <+: theirs') (hsafe : theirs'.length ≤ maxSafeInteger)
    (htook : took ≤ took') (hsent : took' ≤ sent.length) :
    Linked name v sent exports handed theirs' took' where
  added := h.added
  safe := h.safe
  removed := h.removed.trans htook
  tookSent := hsent
  outbox := h.outbox
  delivered := h.delivered.trans htheirs.length_le
  theirsSafe := hsafe
  received := by
    obtain ⟨more, rfl⟩ := htheirs
    rw [List.take_append_of_le_length h.delivered]
    exact h.received
  ack := h.ack
  exported snapshot hs := by
    obtain ⟨hack, low, hlow, hshows⟩ := h.exported snapshot hs
    exact ⟨hack, low, hlow.trans htook, hshows⟩
  messages ms hms := by
    obtain ⟨low, hlow, hshows⟩ := h.messages ms hms
    exact ⟨low, hlow, hshows.grow htheirs⟩
  acks k hk := (h.acks k hk).trans htook
  workedOff := h.workedOff

theorem Linked.withReceiver (h : Linked name v sent exports handed theirs took)
    (receiver : Option ReceiverId) :
    Linked name { v with mailbox := { v.mailbox with inboundReceiver := receiver } } sent exports
      handed theirs took :=
  { h with }

theorem Linked.transmit (h : Linked name v sent exports handed theirs took) (msg : Body)
    (hsafe : v.mailbox.outboundHighestAdded + 1 ≤ maxSafeInteger) :
    Linked name { v with
        mailbox := { v.mailbox with outboundHighestAdded := v.mailbox.outboundHighestAdded + 1 }
        inout := { v.inout with
          outbox := v.inout.outbox.insert (v.mailbox.outboundHighestAdded + 1) msg } }
      (sent ++ [msg]) exports handed theirs took :=
  have hlength : (sent ++ [msg]).length = sent.length + 1 := by simp
  { h with
    added := by rw [hlength, h.added]
    safe := by rw [hlength, ← h.added]; exact hsafe
    tookSent := by have := h.tookSent; omega
    outbox := by
      intro k
      have hremoved := h.removed.trans h.tookSent
      rw [Table.lookup_insert, h.added]
      by_cases hk : k = sent.length + 1
      · subst hk
        rw [if_pos rfl, if_pos (by dsimp only; omega), Nat.add_sub_cancel,
          List.getElem?_concat_length]
      · rw [if_neg hk, h.outbox]
        by_cases hlow : v.mailbox.outboundHighestRemoved < k
        · rw [if_pos hlow, if_pos hlow]
          by_cases hlt : k - 1 < sent.length
          · rw [List.getElem?_append_left hlt]
          · rw [List.getElem?_eq_none (by omega), List.getElem?_eq_none (by omega)]
        · rw [if_neg hlow, if_neg hlow]
    exported := by
      intro snapshot hs
      obtain ⟨hack, low, hlow, hshows⟩ := h.exported snapshot hs
      exact ⟨hack, low, hlow, hshows.grow (List.prefix_append _ _)⟩ }

theorem Linked.deliver {calls : List InboundCall} {low : Nat} {part : List Body}
    (h : Linked name v sent exports handed theirs took)
    (hcalls : v.calls = .deliverInboundMessages name (numbered low part) :: calls)
    (hpart : part <+: theirs.drop low) (hlow : low ≤ v.mailbox.inboundHighestDelivered) :
    Linked name { v with
        mailbox := { v.mailbox with
          inboundHighestDelivered := max v.mailbox.inboundHighestDelivered (low + part.length) }
        inout := { v.inout with
          ack := max v.mailbox.inboundHighestDelivered (low + part.length) }
        received := theirs.take (max v.mailbox.inboundHighestDelivered (low + part.length))
        calls } sent exports handed theirs took :=
  have hle := Nat.le_max_left v.mailbox.inboundHighestDelivered (low + part.length)
  have hrest : ∀ call ∈ calls, call ∈ v.calls := by
    intro call hcall
    rw [hcalls]
    exact List.mem_cons_of_mem _ hcall
  { h with
    delivered := by
      have hlength := hpart.length_le
      have hdelivered := h.delivered
      rw [List.length_drop] at hlength
      dsimp only
      omega
    received := rfl
    ack := rfl
    exported := by
      intro snapshot hs
      obtain ⟨hack, hshows⟩ := h.exported snapshot hs
      exact ⟨hack.trans hle, hshows⟩
    messages := by
      intro ms hms
      obtain ⟨l, hl, hshows⟩ := h.messages ms (hrest _ hms)
      exact ⟨l, hl.trans hle, hshows⟩
    acks := fun k hk => h.acks k (hrest _ hk)
    workedOff := by
      intro snapshot hs
      obtain hcall | hold := h.workedOff snapshot hs
      · rw [hcalls] at hcall
        obtain heq | hcall := List.mem_cons.mp hcall
        · apply Or.inr
          intro e he
          have hms : snapshot.outbox = numbered low part := by injection heq
          rw [hms] at he
          exact (lt_of_mem_numbered he).2.trans (Nat.le_max_right _ _)
        · exact .inl hcall
      · exact .inr fun e he => (hold e he).trans hle }

theorem Linked.ignoreAck {calls : List InboundCall} {ack : Nat}
    (h : Linked name v sent exports handed theirs took)
    (hcalls : v.calls = .deliverInboundAck name ack :: calls) :
    Linked name { v with calls } sent exports handed theirs took :=
  have hrest : ∀ call ∈ calls, call ∈ v.calls := by
    intro call hcall
    rw [hcalls]
    exact List.mem_cons_of_mem _ hcall
  { h with
    messages := fun ms hms => h.messages ms (hrest _ hms)
    acks := fun k hk => h.acks k (hrest _ hk)
    workedOff := by
      intro snapshot hs
      obtain hcall | hold := h.workedOff snapshot hs
      · rw [hcalls] at hcall
        obtain heq | hcall := List.mem_cons.mp hcall
        · cases heq
        · exact .inl hcall
      · exact .inr hold }

theorem Linked.release {calls : List InboundCall} {ack : Nat} {outbox : Table Nat Body}
    (h : Linked name v sent exports handed theirs took)
    (hcalls : v.calls = .deliverInboundAck name ack :: calls)
    (hout : ∀ k, outbox.lookup k =
      if v.mailbox.outboundHighestRemoved < k ∧ k ≤ max v.mailbox.outboundHighestRemoved
        (min v.mailbox.outboundHighestAdded ack) then none
      else v.inout.outbox.lookup k) :
    Linked name { v with
        mailbox := { v.mailbox with
          outboundHighestRemoved := max v.mailbox.outboundHighestRemoved
            (min v.mailbox.outboundHighestAdded ack) }
        inout := { v.inout with outbox }
        calls } sent exports handed theirs took :=
  have hack : ack ≤ took := h.acks ack (by rw [hcalls]; exact List.mem_cons_self ..)
  { h.ignoreAck hcalls with
    removed := by
      have hremoved := h.removed
      dsimp only
      omega
    outbox := by
      intro k
      rw [hout, h.outbox]
      by_cases hrange : v.mailbox.outboundHighestRemoved < k ∧
          k ≤ max v.mailbox.outboundHighestRemoved (min v.mailbox.outboundHighestAdded ack)
      · rw [if_pos hrange, if_neg (by dsimp only; omega)]
      · rw [if_neg hrange]
        by_cases hlow : v.mailbox.outboundHighestRemoved < k
        · rw [if_pos hlow, if_pos (by dsimp only; omega)]
        · rw [if_neg hlow, if_neg (by dsimp only; omega)] }

theorem Linked.withExport (h : Linked name v sent exports handed theirs took) :
    Linked name v sent (exports ++ [exportMailbox v.inout]) handed theirs took :=
  { h with
    exported := by
      intro snapshot hs
      obtain hs | hs := List.mem_append.mp hs
      · exact h.exported snapshot hs
      · obtain rfl := List.mem_singleton.mp hs
        rw [exportMailbox_eq _ h.outbox]
        exact ⟨h.ack.le, _, h.removed, shows_rest (h.removed.trans h.tookSent)⟩ }

theorem Linked.relay (h : Linked name v sent exports handed theirs took) {low : Nat}
    {snapshot : MailboxExport} (hack : snapshot.ack ≤ took)
    (hlow : low ≤ v.mailbox.inboundHighestDelivered) (hshows : Shows theirs low snapshot.outbox) :
    Linked name { v with
        calls := v.calls ++ ((if snapshot.outbox.isEmpty then []
          else [.deliverInboundMessages name snapshot.outbox]) ++
          [.deliverInboundAck name snapshot.ack]) }
      sent exports (handed ++ [snapshot]) theirs took :=
  { h with
    messages := by
      intro ms hms
      simp only [List.mem_append, List.mem_ite_nil_left, List.mem_singleton, reduceCtorEq,
        InboundCall.deliverInboundMessages.injEq, or_false] at hms
      obtain hms | hms := hms
      · exact h.messages ms hms
      · obtain rfl := hms.2.2
        exact ⟨low, hlow, hshows⟩
    acks := by
      intro k hk
      simp only [List.mem_append, List.mem_ite_nil_left, List.mem_singleton, reduceCtorEq,
        InboundCall.deliverInboundAck.injEq, and_false, false_or] at hk
      obtain hk | hk := hk
      · exact h.acks k hk
      · obtain rfl := hk.2
        exact hack
    workedOff := by
      intro other hs
      obtain hs | hs := List.mem_append.mp hs
      · exact (h.workedOff other hs).imp_left (List.mem_append_left _)
      · obtain rfl := List.mem_singleton.mp hs
        cases hout : other.outbox with
        | nil => exact .inr fun e he => by cases he
        | cons e es => exact .inl (List.mem_append_right _ (List.mem_cons_self ..)) }

end Linked

section Calls

variable {m : Machine} {name : String}

theorem sendOnly_spec (m : Machine) (name : String) (call : InboundCall) (h : call.name = name) :
    Wp (sendOnly call)
      (fun _ t => t.inboundHandler = true ∧
        t.view name = { m.view name with calls := m.callsFor name ++ [call] })
      (fun _ t => t = m ∧ m.inboundHandler = false) m := by
  rw [sendOnly, wp_bind, wp_get]
  apply wp_ite
  · intro hon
    refine ⟨hon, ?_⟩
    have hcalls : Machine.callsFor { m with runQueue := m.runQueue ++ [call] } name =
        m.callsFor name ++ [call] := by
      unfold Machine.callsFor
      rw [List.filter_append, List.filter_cons_of_pos (by simpa using h), List.filter_nil]
    unfold Machine.view
    rw [hcalls]
    rfl
  · intro hoff
    exact ⟨rfl, by simpa using hoff⟩

theorem deliverInbound_spec (m : Machine) (name : String) (messages : List (Nat × Body))
    (ack : Nat) : Wp (deliverInbound name messages ack)
      (fun _ t => t.view name = { m.view name with
        calls := m.callsFor name ++ ((if messages.isEmpty then []
          else [.deliverInboundMessages name messages]) ++ [.deliverInboundAck name ack]) })
      (fun _ t => t = m) m := by
  have hcheck : ∀ num, Wp (checkNat num) (fun _ t => t = m) (fun _ t => t = m) m := by
    intro num
    apply wp_ite <;> intro _ <;> rfl
  have hchecks : Wp (messages.forM fun e => checkNat e.1) (fun _ t => t = m) (fun _ t => t = m)
      m := by
    apply wp_forM_const (I := fun t => t = m) _ rfl
    rintro e - t rfl
    exact hcheck e.1
  rw [deliverInbound, wp_bind]
  apply wp_mono hchecks _ fun _ _ h => h
  rintro _ t rfl
  rw [wp_bind]
  apply wp_mono (hcheck ack) _ fun _ _ h => h
  rintro _ t rfl
  cases messages with
  | nil =>
    exact wp_mono (sendOnly_spec t name _ rfl) (fun _ _ h => h.2) fun _ _ h => h.1
  | cons e messages =>
    rw [List.isEmpty_cons, if_neg Bool.false_ne_true, if_neg Bool.false_ne_true, wp_bind]
    apply wp_mono (sendOnly_spec t name _ rfl) _ fun _ _ h => h.1
    rintro _ u ⟨hhandler, hview⟩
    apply wp_mono (sendOnly_spec u name _ rfl)
    · rintro _ x ⟨-, hx⟩
      rw [hx, hview]
      have hcalls : u.callsFor name = t.callsFor name ++
          [.deliverInboundMessages name (e :: messages)] := congrArg PeerView.calls hview
      rw [hcalls, List.append_assoc]
    · rintro _ x ⟨rfl, hoff⟩
      rw [hhandler] at hoff
      cases hoff

theorem elsewhere_sendOnly (call : InboundCall) : Moves (Elsewhere call.name) (sendOnly call) := by
  apply moves_of_wp
  intro m
  rw [sendOnly, wp_bind, wp_get]
  apply wp_ite
  · intro _ other ho
    have hcalls : Machine.callsFor { m with runQueue := m.runQueue ++ [call] } other =
        m.callsFor other := by
      unfold Machine.callsFor
      rw [List.filter_append, List.filter_cons_of_neg (by simpa using ho.symm), List.filter_nil,
        List.append_nil]
    unfold Machine.view
    rw [hcalls]
    rfl
  · intro _ _ _
    rfl

instance (messages : List (Nat × Body)) (ack : Nat) :
    Moves (Elsewhere name) (deliverInbound name messages ack) := by
  have hmessages := elsewhere_sendOnly (.deliverInboundMessages name messages)
  have hack := elsewhere_sendOnly (.deliverInboundAck name ack)
  unfold InboundCall.name at hmessages hack
  unfold deliverInbound
  infer_instance

theorem elsewhere_inboundCall (call : InboundCall) :
    Moves (Elsewhere call.name) (inboundCall call) := by
  cases call with
  | deliverInboundMessages name messages =>
    unfold InboundCall.name inboundCall
    infer_instance
  | deliverInboundAck name ack =>
    unfold InboundCall.name inboundCall
    infer_instance

end Calls

section Steps

variable {names : Side → String} {w w' : World} {s : Side}

def Holds (names : Side → String) (w : World) : Prop :=
  ∀ s, Linked (names s) ((w s).machine.view (names s)) (w s).transmitted (w s).exports (w s).handed
    (w s.other).transmitted
    ((w s.other).machine.mailbox (names s.other)).inboundHighestDelivered

theorem Holds.update (h : Holds names w) {e : Endpoint}
    (hlinked : Linked (names s) (e.machine.view (names s)) e.transmitted e.exports e.handed
      (w s.other).transmitted
      ((w s.other).machine.mailbox (names s.other)).inboundHighestDelivered)
    (hsent : (w s).transmitted <+: e.transmitted)
    (htook : ((w s).machine.mailbox (names s)).inboundHighestDelivered ≤
      (e.machine.mailbox (names s)).inboundHighestDelivered) :
    Holds names (Function.update w s e) := by
  intro s'
  by_cases hs : s' = s
  · subst hs
    rw [Function.update_self, Function.update_of_ne (Side.other_ne s')]
    exact hlinked
  · obtain rfl : s' = s.other := by cases s <;> cases s' <;> simp_all [Side.other]
    rw [Function.update_of_ne hs, Side.other_other, Function.update_self]
    have hother := h s.other
    rw [Side.other_other] at hother
    exact hother.advance hsent hlinked.safe htook hlinked.delivered

theorem Holds.still (h : Holds names w) {m : Machine}
    (hview : m.view (names s) = (w s).machine.view (names s)) :
    Holds names (Function.update w s { w s with machine := m }) := by
  apply h.update
  · rw [hview]
    exact h s
  · exact List.prefix_rfl
  · exact (congrArg (fun v => v.mailbox.inboundHighestDelivered) hview).ge

theorem Holds.callStill (h : Holds names w) {call : VatCall} (hsent : call.sent (names s) = [])
    (hview : Wp call.program (fun _ t => t.view (names s) = (w s).machine.view (names s))
      (fun _ t => t.view (names s) = (w s).machine.view (names s)) (w s).machine) :
    Holds names (Function.update w s ((w s).call (names s) call)) := by
  unfold Endpoint.call
  cases hrun : call.program (w s).machine with
  | ok a m =>
    have hm := wp_of_ok hview hrun
    simp only [hsent, List.append_nil]
    exact h.still hm
  | error err m =>
    have hm := wp_of_error hview hrun
    exact h.still hm

theorem wp_elsewhere {α : Type} {m : M α} {n : String} [Moves (Elsewhere n) m] {name : String}
    (hne : name ≠ n) (t : Machine) : Wp m (fun _ u => u.view name = t.view name)
      (fun _ u => u.view name = t.view name) t :=
  wp_mono (wp_of_moves (Elsewhere n) m t) (fun _ _ h => h name hne) fun _ _ h => h name hne

theorem Holds.call (h : Holds names w) (s : Side) (call : VatCall) :
    Holds names (Function.update w s ((w s).call (names s) call)) := by
  cases call with
  | registerMailboxDevice => exact h.callStill rfl rfl
  | upgrade => exact h.callStill rfl rfl
  | addRemote name =>
    apply h.callStill rfl
    by_cases hname : names s = name
    · subst hname
      apply wp_mono (addRemote_spec _ _) (fun _ _ ht => ht)
      rintro _ t rfl
      rfl
    · exact wp_elsewhere (m := VatTP.addRemote name) hname _
  | setReceiver name receiver =>
    by_cases hname : names s = name
    · subst hname
      have hspec := setReceiver_spec (w s).machine (names s) receiver
      unfold Endpoint.call
      cases hrun : VatCall.program (.setReceiver (names s) receiver) (w s).machine with
      | ok a m =>
        have hview := wp_of_ok hspec hrun
        simp only [VatCall.sent, List.append_nil]
        apply h.update
        · dsimp only
          rw [hview]
          exact (h s).withReceiver (some receiver)
        · exact List.prefix_rfl
        · exact (congrArg (fun v => v.mailbox.inboundHighestDelivered) hview).ge
      | error err m =>
        have hm := wp_of_error hspec hrun
        exact h.still (by rw [hm])
    · exact h.callStill rfl (wp_elsewhere (m := VatTP.setReceiver name receiver) hname _)
  | transmit name msg =>
    by_cases hname : names s = name
    · subst hname
      have hspec := transmit_spec (w s).machine (names s) msg
      unfold Endpoint.call
      cases hrun : VatCall.program (.transmit (names s) msg) (w s).machine with
      | ok a m =>
        obtain ⟨hsafe, hview⟩ := wp_of_ok hspec hrun
        simp only [VatCall.sent, if_true]
        apply h.update
        · dsimp only
          rw [hview]
          exact (h s).transmit msg hsafe
        · exact List.prefix_append _ _
        · exact (congrArg (fun v => v.mailbox.inboundHighestDelivered) hview).ge
      | error err m =>
        have hm := wp_of_error hspec hrun
        exact h.still (by rw [hm])
    · exact h.callStill (if_neg (Ne.symm hname))
        (wp_elsewhere (m := VatTP.transmit name msg) hname _)

theorem Holds.crankOther (h : Holds names w) {call : InboundCall} {rest : List InboundCall}
    (hqueue : (w s).machine.runQueue = call :: rest) (hname : call.name ≠ names s) :
    Holds names (Function.update w s { w s with
      machine := finalState (inboundCall call) { (w s).machine with runQueue := rest } }) := by
  have hmoves := elsewhere_inboundCall call
  have hpop : Machine.view { (w s).machine with runQueue := rest } (names s) =
      (w s).machine.view (names s) := by
    have hcalls : (w s).machine.callsFor (names s) =
        Machine.callsFor { (w s).machine with runQueue := rest } (names s) := by
      unfold Machine.callsFor
      rw [hqueue, List.filter_cons_of_neg (by simpa using hname)]
    unfold Machine.view
    rw [hcalls]
    rfl
  apply h.still
  exact (hmoves.rel _ _ hname.symm).trans hpop

theorem Holds.crank (h : Holds names w) (hready : MeetsReady names w (.crank s)) {e : Endpoint}
    (hcrank : (w s).crank = some e) : Holds names (Function.update w s e) := by
  have hlinked := h s
  unfold Endpoint.crank at hcrank
  unfold MeetsReady at hready
  cases hqueue : (w s).machine.runQueue with
  | nil =>
    rw [hqueue] at hcrank
    cases hcrank
  | cons call rest =>
    rw [hqueue] at hcrank
    simp only [hqueue] at hready
    cases hcrank
    by_cases hname : call.name = names s
    · let m : Machine := { (w s).machine with runQueue := rest }
      have hcalls : ((w s).machine.view (names s)).calls = call :: m.callsFor (names s) := by
        change (w s).machine.callsFor (names s) = _
        unfold Machine.callsFor
        rw [hqueue, List.filter_cons_of_pos (by simpa using hname)]
      cases call with
      | deliverInboundMessages name messages =>
        obtain rfl : name = names s := hname
        obtain ⟨low, hlow, -, part, hpart, rfl⟩ :=
          hlinked.messages messages (by rw [hcalls]; exact List.mem_cons_self ..)
        have hsafe : low + part.length ≤ maxSafeInteger := by
          have hlength := hpart.length_le
          have hdelivered := hlinked.delivered
          have htheirs := hlinked.theirsSafe
          rw [List.length_drop] at hlength
          change low ≤ ((w s).machine.mailbox (names s)).inboundHighestDelivered at hlow
          change ((w s).machine.mailbox (names s)).inboundHighestDelivered ≤ _ at hdelivered
          omega
        have hspec := deliverInboundMessages_spec (m := m) hpart hlow hsafe hlinked.received
          hlinked.ack (hready rfl)
        obtain ⟨d, rfl, hview⟩ := finalState_of_wp (wp_mono hspec (fun _ _ h => h)
          fun _ _ h => h.elim)
        apply h.update
        · dsimp only
          rw [hview]
          exact hlinked.deliver hcalls hpart hlow
        · exact List.prefix_rfl
        · apply le_of_le_of_eq (Nat.le_max_left _ _)
          exact (congrArg (fun v => v.mailbox.inboundHighestDelivered) hview).symm
      | deliverInboundAck name ack =>
        obtain rfl : name = names s := hname
        have hle : (m.mailbox (names s)).outboundHighestRemoved ≤
            (m.mailbox (names s)).outboundHighestAdded := by
          have hadded : (m.mailbox (names s)).outboundHighestAdded = _ := hlinked.added
          rw [hadded]
          exact hlinked.removed.trans hlinked.tookSent
        have hsafe : (m.mailbox (names s)).outboundHighestAdded ≤ maxSafeInteger :=
          hlinked.added.le.trans hlinked.safe
        have hspec := deliverInboundAck_spec ack hle hsafe
        cases hrun : inboundCall (.deliverInboundAck (names s) ack) m with
        | ok a t =>
          obtain ⟨r, outbox, rfl, hview, hout⟩ := wp_of_ok hspec hrun
          have ht : finalState (inboundCall (.deliverInboundAck (names s) ack)) m = t := by
            rw [finalState, hrun]
          apply h.update
          · dsimp only
            rw [ht, hview]
            exact hlinked.release hcalls hout
          · exact List.prefix_rfl
          · rw [ht]
            exact (congrArg (fun v => v.mailbox.inboundHighestDelivered) hview).ge
        | error err t =>
          have hview := wp_of_error hspec hrun
          have ht : finalState (inboundCall (.deliverInboundAck (names s) ack)) m = t := by
            rw [finalState, hrun]
          apply h.update
          · dsimp only
            rw [ht, hview]
            exact hlinked.ignoreAck hcalls
          · exact List.prefix_rfl
          · rw [ht]
            exact (congrArg (fun v => v.mailbox.inboundHighestDelivered) hview).ge
    · exact h.crankOther hqueue hname

theorem Holds.relay (h : Holds names w) {i : Nat} {snapshot : MailboxExport}
    (hi : (w s.other).exports[i]? = some snapshot) :
    Holds names (Function.update w s ((w s).relay (names s) snapshot)) := by
  have hother := h s.other
  rw [Side.other_other] at hother
  obtain ⟨hack, low, hlow, hshows⟩ := hother.exported snapshot (List.mem_of_getElem? hi)
  have hspec := deliverInbound_spec (w s).machine (names s) snapshot.outbox snapshot.ack
  unfold Endpoint.relay
  cases hrun : deliverInbound (names s) snapshot.outbox snapshot.ack (w s).machine with
  | ok a m =>
    have hview := wp_of_ok hspec hrun
    apply h.update
    · dsimp only
      rw [hview]
      exact (h s).relay hack hlow hshows
    · exact List.prefix_rfl
    · exact (congrArg (fun v => v.mailbox.inboundHighestDelivered) hview).ge
  | error err m =>
    have hm := wp_of_error hspec hrun
    exact h.still (by rw [hm])

theorem Holds.step (h : Holds names w) {a : Action} (hready : MeetsReady names w a)
    (hstep : step names w a = some w') : Holds names w' := by
  cases a with
  | registerInboundHandler s =>
    cases hstep
    exact h.still rfl
  | unregisterInboundHandler s =>
    cases hstep
    exact h.still rfl
  | call s call =>
    rw [VatTP.step] at hstep
    split at hstep
    · cases hstep
      exact h.call s call
    · cases hstep
  | crank s =>
    obtain ⟨e, he, rfl⟩ := Option.map_eq_some_iff.mp hstep
    exact h.crank hready he
  | inbound s peer messages ack =>
    rw [VatTP.step] at hstep
    split at hstep
    · cases hstep
    · rename_i hpeer
      cases hstep
      apply h.still
      exact Moves.rel (R := Elsewhere peer) (m := deliverInbound peer messages ack) _ _ (Ne.symm hpeer)
  | «export» s =>
    cases hstep
    exact h.update (h s).withExport List.prefix_rfl (Nat.le_refl _)
  | relay s i =>
    obtain ⟨snapshot, hi, rfl⟩ := Option.map_eq_some_iff.mp hstep
    exact h.relay hi

theorem holds_of_reachable (h : (pair names).Reachable (MeetsReady names) w) : Holds names w := by
  apply h.invariant
  · rintro w rfl s
    exact linked_empty (names s)
  · intro w a w' hw hok hstep
    exact hw.step hok hstep

/-- In every run in which new messages meet a mailbox that is ready, each side is
given what the other transmitted exactly once and in order. -/
theorem exactly_once (h : (pair names).Reachable (MeetsReady names) w) (s : Side) :
    ExactlyOnce names w s := by
  have hall := holds_of_reachable h
  have hlinked := hall s
  have hother := hall s.other
  rw [Side.other_other] at hother
  have hreceived : (w s).machine.receivedFrom (names s) = (w s.other).transmitted.take
      ((w s).machine.mailbox (names s)).inboundHighestDelivered := hlinked.received
  have hdelivered : ((w s).machine.mailbox (names s)).inboundHighestDelivered ≤
      (w s.other).transmitted.length := hlinked.delivered
  have hremoved : ((w s.other).machine.mailbox (names s.other)).outboundHighestRemoved ≤
      ((w s).machine.mailbox (names s)).inboundHighestDelivered := hother.removed
  constructor
  case inOrder =>
    rw [hreceived]
    exact List.take_prefix _ _
  case kept =>
    intro k body hk hbody
    rw [hreceived, List.length_take, Nat.min_eq_left hdelivered] at hk
    exact ((hother.outbox (k + 1)).trans (if_pos (Nat.lt_succ_of_le (hremoved.trans hk)))).trans hbody
  case range =>
    intro k body hbody
    have hrange := (hlinked.outbox k).symm.trans hbody
    have hadded : ((w s).machine.mailbox (names s)).outboundHighestAdded =
        (w s).transmitted.length := hlinked.added
    split at hrange
    case isTrue hlow =>
      obtain ⟨hlt, -⟩ := List.getElem?_eq_some_iff.mp hrange
      exact ⟨hlow, by omega⟩
    case isFalse => cases hrange
  case complete =>
    intro hhanded hcalls
    have hexport := exportMailbox_eq ((w s.other).machine.inout (names s.other))
      hother.outbox
    have hcovered : ∀ e ∈ numbered
        ((w s.other).machine.mailbox (names s.other)).outboundHighestRemoved
        ((w s.other).transmitted.drop
          ((w s.other).machine.mailbox (names s.other)).outboundHighestRemoved),
        e.1 ≤ ((w s).machine.mailbox (names s)).inboundHighestDelivered := by
      rw [hexport] at hhanded
      obtain hcall | hold := hlinked.workedOff _ hhanded
      · have hnil : ((w s).machine.view (names s)).calls = [] := hcalls
        rw [hnil] at hcall
        cases hcall
      · exact hold
    have hall : (w s.other).transmitted.length ≤
        ((w s).machine.mailbox (names s)).inboundHighestDelivered := by
      by_contra hless
      have hlt : (w s.other).transmitted.length - 1 < (w s.other).transmitted.length := by omega
      have hlast := hcovered ((w s.other).transmitted.length,
        (w s.other).transmitted[(w s.other).transmitted.length - 1]) (mem_numbered_iff.mpr ⟨by omega, by
          rw [List.getElem?_drop]
          exact (congrArg (fun i => (w s.other).transmitted[i]?) (by omega)).trans
            (List.getElem?_eq_getElem hlt)⟩)
      omega
    rw [hreceived, List.take_of_length_le hall]

end Steps

section Runs

def sideNames : Side → String
  | .left => "right"
  | .right => "left"

/-- Both machines are set up, and a message of the left goes over. -/
def oneMessage : List Action :=
  [.registerInboundHandler .left, .call .left .registerMailboxDevice, .call .left (.addRemote "right"),
    .call .left (.setReceiver "right" 1), .registerInboundHandler .right,
    .call .right .registerMailboxDevice, .call .right (.addRemote "left"),
    .call .right (.setReceiver "left" 2), .call .left (.transmit "right" "hello"), .export .left,
    .relay .right 0, .crank .right, .crank .right]

theorem oneMessage_runs :
    ((pair sideNames).runWhile (MeetsReady sideNames) (fun _ => {}) oneMessage).isSome := by
  decide +kernel

theorem exactly_once_of_oneMessage :
    ExactlyOnce sideNames (Option.get _ oneMessage_runs) .right :=
  exactly_once (.of_runWhile (.init rfl) (Option.some_get oneMessage_runs).symm) .right

/-- The message arrives before the receiver: it is acknowledged and given to no one. -/
def lostMessage : List Action :=
  [.registerInboundHandler .left, .call .left .registerMailboxDevice, .call .left (.addRemote "right"),
    .call .left (.setReceiver "right" 1), .registerInboundHandler .right,
    .call .right .registerMailboxDevice, .call .left (.transmit "right" "hello"), .export .left,
    .relay .right 0, .crank .right, .crank .right, .export .right, .relay .left 0, .crank .left]

theorem lostMessage_runs :
    ((pair sideNames).runWhile TransitionSystem.anyStep (fun _ => {}) lostMessage).isSome := by
  decide +kernel

theorem message_lost : ¬ ∀ names w, (pair names).Reachable TransitionSystem.anyStep w →
    ∀ s, ExactlyOnce names w s := by
  intro h
  have hlost := h sideNames _ (.of_runWhile (.init rfl) (Option.some_get lostMessage_runs).symm)
    .right
  have hkept := hlost.kept 0 "hello" (by decide +kernel) (by decide +kernel)
  exact absurd hkept (by decide +kernel)

end Runs

end AgoricSdk.VatTP
