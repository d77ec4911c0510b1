import AgoricSdk.Lib.Window
import AgoricSdk.VatTP.Mailbox

/-!
What a call does to the mailbox of the remote that it names, and that it leaves
the mailboxes of the other remotes as they are.
-/

namespace AgoricSdk.VatTP

open StateProgram Window

/-- The remote that a call names. -/
def InboundCall.name : InboundCall → String
  | .deliverInboundMessages name _ => name
  | .deliverInboundAck name _ => name

namespace Machine

def mailbox (m : Machine) (name : String) : MailboxState := (m.vat.mailboxes.lookup name).getD {}

def inout (m : Machine) (name : String) : Mailbox := (m.mailboxState.lookup name).getD {}

/-- The bodies from the remote that its receiver was given, in order. -/
def receivedFrom (m : Machine) (name : String) : List Body :=
  (m.received.filter fun r => r.1 = name).map Prod.snd

/-- The calls for the remote that wait. -/
def callsFor (m : Machine) (name : String) : List InboundCall :=
  m.runQueue.filter fun call => call.name = name

def setInout (m : Machine) (name : String) (inout : Mailbox) : Machine :=
  { m with mailboxState := m.mailboxState.insert name inout }

def setState (m : Machine) (name : String) (state : MailboxState) : Machine :=
  { m with vat.mailboxes := m.vat.mailboxes.insert name state }

@[simp] theorem inout_setInout (m : Machine) (name other : String) (i : Mailbox) :
    (m.setInout name i).inout other = if other = name then i else m.inout other := by
  unfold inout setInout
  rw [Table.lookup_insert]
  split <;> rfl

@[simp] theorem setInout_setInout (m : Machine) (name : String) (i j : Mailbox) :
    (m.setInout name i).setInout name j = m.setInout name j := by
  unfold setInout
  simp only [Table.insert_insert_self]

@[simp] theorem mailbox_setState (m : Machine) (name other : String) (s : MailboxState) :
    (m.setState name s).mailbox other = if other = name then s else m.mailbox other := by
  unfold mailbox setState
  rw [Table.lookup_insert]
  split <;> rfl

end Machine

section Programs

variable {m : Machine} {name : String}

theorem checkNat_run {num : Nat} (h : num ≤ maxSafeInteger) : checkNat num m = .ok () m := by
  rw [checkNat, if_pos h]
  rfl

theorem mailboxDevice_run (h : m.vat.mailboxDevice = true) : mailboxDevice m = .ok () m := by
  rw [mailboxDevice, bind_run get_run, h]
  rfl

theorem updatePeer_run (f : Mailbox → Mailbox) :
    (do let inout ← getOrCreatePeer name; setPeer name (f inout)) m =
      .ok () (m.setInout name (f (m.inout name))) := by
  cases hp : m.mailboxState.lookup name with
  | some i =>
    have hinout : m.inout name = i := by rw [Machine.inout, hp]; rfl
    have hget : getOrCreatePeer name m = .ok i m := by
      rw [getOrCreatePeer, bind_run get_run, hp]
      rfl
    rw [bind_run hget, hinout]
    rfl
  | none =>
    have hinout : m.inout name = {} := by rw [Machine.inout, hp]; rfl
    have hget : getOrCreatePeer name m = .ok {} (m.setInout name {}) := by
      rw [getOrCreatePeer, bind_run get_run, hp]
      rfl
    rw [bind_run hget, hinout]
    change EStateM.Result.ok () ((m.setInout name {}).setInout name _) = _
    rw [Machine.setInout_setInout]

theorem getMailbox_run {state : MailboxState} (h : m.vat.mailboxes.lookup name = some state) :
    getMailbox name m = .ok state m := by
  rw [getMailbox, bind_run get_run, h]
  rfl

theorem getMailbox_missing (h : m.vat.mailboxes.lookup name = none) :
    getMailbox name m = .error (.noSuchMailbox name) m := by
  rw [getMailbox, bind_run get_run, h]
  rfl

/-- The machine once the remote has a mailbox. -/
def provided (m : Machine) (name : String) : Machine :=
  if m.vat.mailboxes.has name then m else m.setState name {}

theorem lookup_provided (m : Machine) (name : String) :
    (provided m name).vat.mailboxes.lookup name = some (m.mailbox name) := by
  unfold provided Machine.mailbox Table.has
  cases h : m.vat.mailboxes.lookup name with
  | some state => simp [h]
  | none => simp [Machine.setState]

theorem provideMailbox_run : provideMailbox name m = .ok (m.mailbox name) (provided m name) := by
  rw [provideMailbox, bind_run get_run]
  by_cases hhas : m.vat.mailboxes.has name = true
  · rw [if_pos hhas]
    apply (bind_run rfl).trans
    have hp : provided m name = m := if_pos hhas
    have hlookup := lookup_provided m name
    rw [hp] at hlookup ⊢
    exact getMailbox_run hlookup
  · rw [if_neg hhas]
    have hp : provided m name = m.setState name {} := if_neg hhas
    have hset : setMailbox name {} m = .ok () (provided m name) := by rw [hp]; rfl
    exact (bind_run hset).trans (getMailbox_run (lookup_provided m name))

@[simp] theorem mailbox_provided (m : Machine) (name other : String) :
    (provided m name).mailbox other = m.mailbox other := by
  by_cases ho : other = name
  · subst ho
    rw [Machine.mailbox, lookup_provided]
    rfl
  · unfold provided
    split
    · rfl
    · rw [Machine.mailbox_setState, if_neg ho]

@[simp] theorem inout_provided (m : Machine) (name other : String) :
    (provided m name).inout other = m.inout other := by
  unfold provided
  split <;> rfl

@[simp] theorem received_provided (m : Machine) (name : String) :
    (provided m name).received = m.received := by
  unfold provided
  split <;> rfl

@[simp] theorem runQueue_provided (m : Machine) (name : String) :
    (provided m name).runQueue = m.runQueue := by
  unfold provided
  split <;> rfl

@[simp] theorem mailboxDevice_provided (m : Machine) (name : String) :
    (provided m name).vat.mailboxDevice = m.vat.mailboxDevice := by
  unfold provided
  split <;> rfl

/-- Bodies passed to the receiver, the last of which is acknowledged as `d`. -/
def handOver (m : Machine) (name : String) (bodies : List Body) (d : Nat) : Machine :=
  { m with received := m.received ++ bodies.map fun body => (name, body) }.setInout name
    { m.inout name with ack := d }

theorem handOver_handOver (m : Machine) (name : String) (xs ys : List Body) (d e : Nat) :
    handOver (handOver m name xs d) name ys e = handOver m name (xs ++ ys) e := by
  unfold handOver
  rw [Machine.inout_setInout, if_pos rfl]
  unfold Machine.setInout
  simp only [List.map_append, List.append_assoc, Table.insert_insert_self]

theorem deliverLoop_run {receiver : ReceiverId} {part : List Body} {low d : Nat}
    (hdevice : m.vat.mailboxDevice = true) (hlow : low ≤ d)
    (hsafe : low + part.length ≤ maxSafeInteger) :
    deliverLoop name (some receiver) d (numbered low part) m = .ok (max d (low + part.length))
      (if part.length ≤ d - low then m
        else handOver m name (part.drop (d - low)) (low + part.length)) := by
  induction part generalizing low d m with
  | nil =>
    rw [List.length_nil, if_pos (Nat.zero_le _), Nat.add_zero, Nat.max_eq_left hlow]
    rfl
  | cons body part ih =>
    rw [List.length_cons] at hsafe ⊢
    rw [numbered, deliverLoop]
    by_cases hnew : low + 1 > d
    · obtain rfl : d = low := by omega
      rw [if_pos hnew, if_neg (by omega), Nat.sub_self, List.drop_zero]
      let t := handOver m name [body] (d + 1)
      have hack : deviceAckInbound name (d + 1)
          { m with received := m.received ++ [(name, body)] } = .ok () t := by
        rw [deviceAckInbound, bind_run (checkNat_run (by omega))]
        exact updatePeer_run fun inout => { inout with ack := d + 1 }
      have hreceive : receive name (some receiver) body m =
          .ok () { m with received := m.received ++ [(name, body)] } := rfl
      apply (bind_run hreceive).trans
      have hready : mailboxDevice { m with received := m.received ++ [(name, body)] } =
          .ok () { m with received := m.received ++ [(name, body)] } := mailboxDevice_run hdevice
      apply (bind_run hready).trans
      apply (bind_run hack).trans
      rw [ih (m := t) hdevice (Nat.le_refl _) (by omega)]
      have hmax : max (d + 1) (d + 1 + part.length) = max d (d + (part.length + 1)) := by omega
      rw [hmax, Nat.sub_self, List.drop_zero]
      congr 1
      by_cases hpart : part.length ≤ 0
      · obtain rfl : part = [] := List.length_eq_zero_iff.mp (by omega)
        rw [if_pos hpart]
        rfl
      · have hsum : d + 1 + part.length = d + (part.length + 1) := by omega
        rw [if_neg hpart, handOver_handOver, hsum]
        rfl
    · rw [if_neg hnew, ih hdevice (by omega) (by omega)]
      have hmax : max d (low + 1 + part.length) = max d (low + (part.length + 1)) := by omega
      have hdrop : d - low = (d - (low + 1)) + 1 := by omega
      have hsum : low + 1 + part.length = low + (part.length + 1) := by omega
      rw [hmax, hdrop, List.drop_succ_cons, hsum]
      congr 1
      by_cases hpart : part.length ≤ d - (low + 1)
      · rw [if_pos hpart, if_pos (by omega)]
      · rw [if_neg hpart, if_neg (by omega)]

theorem deliverLoop_old {receiver : Option ReceiverId} {d : Nat} {messages : List (Nat × Body)}
    (hold : ∀ e ∈ messages, e.1 ≤ d) : deliverLoop name receiver d messages m = .ok d m := by
  induction messages with
  | nil => rfl
  | cons e messages ih =>
    have he : ¬ e.1 > d := Nat.not_lt.mpr (hold e (List.mem_cons_self ..))
    rw [deliverLoop, if_neg he]
    exact ih fun e' he' => hold e' (List.mem_cons_of_mem _ he')

theorem removeLoop_run (name : String) (ack fuel : Nat) {added r : Nat}
    (hdevice : m.vat.mailboxDevice = true) (hfuel : added ≤ r + fuel) (hr : r ≤ added)
    (hsafe : added ≤ maxSafeInteger) :
    ∃ mailboxState, removeLoop name added ack fuel r m =
        .ok (max r (min added ack)) { m with mailboxState } ∧
      (Machine.inout { m with mailboxState } name).ack = (m.inout name).ack ∧
      ∀ k, (Machine.inout { m with mailboxState } name).outbox.lookup k =
        if r < k ∧ k ≤ max r (min added ack) then none else (m.inout name).outbox.lookup k := by
  induction fuel generalizing r m with
  | zero =>
    have hmax : max r (min added ack) = r := by omega
    refine ⟨m.mailboxState, ?_, rfl, fun k => ?_⟩
    · rw [hmax]
      rfl
    · rw [if_neg (by omega)]
  | succ fuel ih =>
    by_cases hmore : r < added ∧ r < ack
    · let t := m.setInout name
        { m.inout name with outbox := (m.inout name).outbox.erase (r + 1) }
      have hremove : deviceRemove name (r + 1) m = .ok () t := by
        rw [deviceRemove, bind_run (checkNat_run (by omega))]
        exact updatePeer_run fun inout => { inout with outbox := inout.outbox.erase (r + 1) }
      obtain ⟨mailboxState, hrun, hack, hout⟩ := ih (m := t) hdevice (r := r + 1) (by omega)
        (by omega)
      have hmax : max (r + 1) (min added ack) = max r (min added ack) := by omega
      have htinout : t.inout name =
          { m.inout name with outbox := (m.inout name).outbox.erase (r + 1) } := by
        rw [Machine.inout_setInout, if_pos rfl]
      rw [hmax] at hrun hout
      refine ⟨mailboxState, ?_, ?_, fun k => ?_⟩
      · rw [removeLoop, if_pos hmore]
        apply (bind_run (mailboxDevice_run hdevice)).trans
        exact (bind_run hremove).trans hrun
      · apply hack.trans
        rw [htinout]
      · apply (hout k).trans
        rw [htinout, Table.lookup_erase]
        by_cases hk : k = r + 1
        · rw [if_neg (by omega), if_pos hk, if_pos (by omega)]
        · rw [if_neg hk]
          by_cases hrange : r + 1 < k ∧ k ≤ max r (min added ack)
          · rw [if_pos hrange, if_pos (by omega)]
          · rw [if_neg hrange, if_neg (by omega)]
    · have hmax : max r (min added ack) = r := by omega
      refine ⟨m.mailboxState, ?_, rfl, fun k => ?_⟩
      · rw [removeLoop, if_neg hmore, hmax]
        rfl
      · rw [if_neg (by omega)]

end Programs

/-- What a machine keeps for one remote. -/
structure PeerView where
  mailbox : MailboxState
  inout : Mailbox
  received : List Body
  calls : List InboundCall

def Machine.view (m : Machine) (name : String) : PeerView where
  mailbox := m.mailbox name
  inout := m.inout name
  received := m.receivedFrom name
  calls := m.callsFor name

section Effects

variable {m : Machine} {name : String}

theorem view_provided (m : Machine) (name other : String) :
    (provided m name).view other = m.view other := by
  unfold Machine.view Machine.receivedFrom Machine.callsFor
  simp only [mailbox_provided, inout_provided, received_provided, runQueue_provided]

theorem view_setState (m : Machine) (name : String) (state : MailboxState) :
    (m.setState name state).view name = { m.view name with mailbox := state } := by
  have hmailbox : (m.setState name state).mailbox name = state := by
    rw [Machine.mailbox_setState, if_pos rfl]
  unfold Machine.view
  rw [hmailbox]
  rfl

theorem view_setInout (m : Machine) (name : String) (inout : Mailbox) :
    (m.setInout name inout).view name = { m.view name with inout } := by
  have hinout : (m.setInout name inout).inout name = inout := by
    rw [Machine.inout_setInout, if_pos rfl]
  unfold Machine.view
  rw [hinout]
  rfl

theorem view_handOver (m : Machine) (name : String) (bodies : List Body) (d : Nat) :
    (handOver m name bodies d).view name = { m.view name with
      inout := { m.inout name with ack := d }
      received := m.receivedFrom name ++ bodies } := by
  apply (view_setInout _ _ _).trans
  have hreceived : Machine.receivedFrom
      { m with received := m.received ++ bodies.map fun body => (name, body) } name =
      m.receivedFrom name ++ bodies := by
    unfold Machine.receivedFrom
    rw [List.filter_append, List.map_append, List.filter_map, List.map_map]
    congr 1
    simp [Function.comp_def]
  unfold Machine.view
  rw [hreceived]
  rfl

theorem mailbox_of_lookup {state : MailboxState} (h : m.vat.mailboxes.lookup name = some state) :
    m.mailbox name = state := by
  rw [Machine.mailbox, h]
  rfl

theorem transmit_spec (m : Machine) (name : String) (msg : Body) : Wp (transmit name msg)
    (fun _ t => (m.mailbox name).outboundHighestAdded + 1 ≤ maxSafeInteger ∧
      t.view name = { m.view name with
        mailbox := { m.mailbox name with
          outboundHighestAdded := (m.mailbox name).outboundHighestAdded + 1 }
        inout := { m.inout name with
          outbox := (m.inout name).outbox.insert
            ((m.mailbox name).outboundHighestAdded + 1) msg } })
    (fun _ t => t = m) m := by
  cases hlookup : m.vat.mailboxes.lookup name with
  | none =>
    rw [transmit, wp_bind, Wp, getMailbox_missing hlookup]
  | some state =>
    have hstate := mailbox_of_lookup hlookup
    rw [transmit, wp_bind, wp_of_run (getMailbox_run hlookup), wp_bind]
    by_cases hdevice : m.vat.mailboxDevice = true
    · rw [wp_of_run (mailboxDevice_run hdevice), deviceAdd, bind_assoc, wp_bind]
      by_cases hsafe : state.outboundHighestAdded + 1 ≤ maxSafeInteger
      · rw [wp_of_run (checkNat_run hsafe), wp_bind, wp_of_run (updatePeer_run fun inout =>
          { inout with outbox := inout.outbox.insert (state.outboundHighestAdded + 1) msg })]
        rw [hstate]
        refine ⟨hsafe, ?_⟩
        apply (view_setState _ _ _).trans
        rw [view_setInout]
      · rw [checkNat, if_neg hsafe]
        rfl
    · rw [mailboxDevice, wp_bind, wp_get, if_neg hdevice]
      rfl

theorem setReceiver_spec (m : Machine) (name : String) (receiver : ReceiverId) :
    Wp (setReceiver name receiver)
      (fun _ t => t.view name = { m.view name with
        mailbox := { m.mailbox name with inboundReceiver := some receiver } })
      (fun _ t => t = m) m := by
  cases hlookup : m.vat.mailboxes.lookup name with
  | none =>
    rw [setReceiver, wp_bind, Wp, getMailbox_missing hlookup]
  | some state =>
    have hstate := mailbox_of_lookup hlookup
    rw [setReceiver, wp_bind, wp_of_run (getMailbox_run hlookup), hstate]
    apply wp_ite
    · intro _
      rfl
    · intro _
      exact view_setState _ _ _

theorem addRemote_spec (m : Machine) (name : String) : Wp (addRemote name)
    (fun _ t => t.view name = m.view name) (fun _ t => t = m) m := by
  rw [addRemote, wp_bind, wp_get]
  apply wp_ite
  · intro _
    rfl
  · intro _
    rw [wp_bind, wp_of_run provideMailbox_run]
    exact view_provided m name name

/-- The mailbox of a remote is ready for messages. -/
def Ready (m : Machine) (name : String) : Prop :=
  m.vat.mailboxDevice = true ∧ (m.mailbox name).inboundReceiver.isSome = true

instance (m : Machine) (name : String) : Decidable (Ready m name) :=
  inferInstanceAs (Decidable (_ ∧ _))

theorem deliverInboundMessages_spec {log part : List Body} {low : Nat}
    (hpart : part <+: log.drop low) (hlow : low ≤ (m.mailbox name).inboundHighestDelivered)
    (hsafe : low + part.length ≤ maxSafeInteger)
    (hreceived : m.receivedFrom name = log.take (m.mailbox name).inboundHighestDelivered)
    (hack : (m.inout name).ack = (m.mailbox name).inboundHighestDelivered)
    (hready : (∃ e ∈ numbered low part, (m.mailbox name).inboundHighestDelivered < e.1) →
      Ready m name) :
    Wp (inboundCall (.deliverInboundMessages name (numbered low part)))
      (fun _ t => ∃ d, d = max (m.mailbox name).inboundHighestDelivered (low + part.length) ∧
        t.view name = { m.view name with
          mailbox := { m.mailbox name with inboundHighestDelivered := d }
          inout := { m.inout name with ack := d }
          received := log.take d })
      (fun _ _ => False) m := by
  have hstate := lookup_provided m name
  rw [inboundCall, wp_bind, wp_of_run provideMailbox_run, deliverMessages, wp_bind,
    wp_of_run (getMailbox_run hstate), wp_bind]
  by_cases hnew : low + part.length ≤ (m.mailbox name).inboundHighestDelivered
  · have hold : ∀ e ∈ numbered low part, e.1 ≤ (m.mailbox name).inboundHighestDelivered :=
      fun e he => (lt_of_mem_numbered he).2.trans hnew
    rw [wp_of_run (deliverLoop_old hold), if_neg (lt_irrefl _)]
    refine ⟨_, rfl, ?_⟩
    rw [Nat.max_eq_left hnew, view_provided, ← hreceived]
    unfold Machine.view
    congr 1
    rw [← hack]
  · have hlast : ∃ e ∈ numbered low part, (m.mailbox name).inboundHighestDelivered < e.1 := by
      have hindex : part.length - 1 < part.length := by omega
      refine ⟨(low + part.length, part[part.length - 1]), mem_numbered_iff.mpr ⟨by omega, ?_⟩,
        Nat.lt_of_not_le hnew⟩
      have hsub : low + part.length - low - 1 = part.length - 1 := by omega
      rw [hsub]
      exact List.getElem?_eq_getElem hindex
    obtain ⟨hdevice, hreceiver⟩ := hready hlast
    obtain ⟨receiver, hreceiver⟩ := Option.isSome_iff_exists.mp hreceiver
    have hdevice' : (provided m name).vat.mailboxDevice = true := by
      rw [mailboxDevice_provided, hdevice]
    have hmax : max (m.mailbox name).inboundHighestDelivered (low + part.length) =
        low + part.length := by omega
    rw [hreceiver, wp_of_run (deliverLoop_run hdevice' hlow hsafe), hmax,
      if_pos (Nat.lt_of_not_le hnew), if_neg (by omega)]
    refine ⟨_, rfl, ?_⟩
    apply (view_setState _ _ _).trans
    have hfrom : (provided m name).receivedFrom name =
        log.take (m.mailbox name).inboundHighestDelivered := by
      rw [← hreceived]
      exact congrArg PeerView.received (view_provided m name name)
    have htaken := take_append_part hpart hlow
    rw [hmax] at htaken
    rw [view_handOver, view_provided, hfrom, htaken]
    simp only [inout_provided, hreceiver]

theorem deliverInboundAck_spec (ack : Nat)
    (hle : (m.mailbox name).outboundHighestRemoved ≤ (m.mailbox name).outboundHighestAdded)
    (hsafe : (m.mailbox name).outboundHighestAdded ≤ maxSafeInteger) :
    Wp (inboundCall (.deliverInboundAck name ack))
      (fun _ t => ∃ r outbox, r = max (m.mailbox name).outboundHighestRemoved
          (min (m.mailbox name).outboundHighestAdded ack) ∧
        t.view name = { m.view name with
          mailbox := { m.mailbox name with outboundHighestRemoved := r }
          inout := { m.inout name with outbox } } ∧
        ∀ k, outbox.lookup k =
          if (m.mailbox name).outboundHighestRemoved < k ∧ k ≤ r then none
          else (m.inout name).outbox.lookup k)
      (fun _ t => t.view name = m.view name) m := by
  have hstate := lookup_provided m name
  rw [inboundCall, wp_bind, wp_of_run provideMailbox_run, deliverAck, wp_bind,
    wp_of_run (getMailbox_run hstate), wp_bind]
  by_cases hdevice : m.vat.mailboxDevice = true
  · have hdevice' : (provided m name).vat.mailboxDevice = true := by
      rw [mailboxDevice_provided, hdevice]
    obtain ⟨mailboxState, hrun, hack, hout⟩ := removeLoop_run name ack
      ((m.mailbox name).outboundHighestAdded - (m.mailbox name).outboundHighestRemoved)
      hdevice' (by omega) hle hsafe
    rw [wp_of_run hrun]
    let t : Machine := { provided m name with mailboxState }
    have hinout : t.inout name = { m.inout name with outbox := (t.inout name).outbox } := by
      have hsame : (t.inout name).ack = (m.inout name).ack := by rw [hack, inout_provided]
      simp only [← hsame]
    have hview : t.view name = { m.view name with inout := t.inout name } := by
      rw [← view_provided m name name]
      rfl
    have hlookup : ∀ k, (t.inout name).outbox.lookup k =
        if (m.mailbox name).outboundHighestRemoved < k ∧
          k ≤ max (m.mailbox name).outboundHighestRemoved
            (min (m.mailbox name).outboundHighestAdded ack) then none
        else (m.inout name).outbox.lookup k := by
      intro k
      rw [hout, inout_provided]
    apply wp_ite
    · intro _
      refine ⟨_, (t.inout name).outbox, rfl, ?_, hlookup⟩
      apply (view_setState t name _).trans
      rw [hview, ← hinout]
    · intro hkeep
      refine ⟨_, (t.inout name).outbox, rfl, ?_, hlookup⟩
      have hmax : max (m.mailbox name).outboundHighestRemoved
          (min (m.mailbox name).outboundHighestAdded ack) =
          (m.mailbox name).outboundHighestRemoved := by omega
      rw [hmax, ← hinout]
      exact hview
  · have hdevice' : ¬ (provided m name).vat.mailboxDevice = true := by
      rw [mailboxDevice_provided]
      exact hdevice
    have hstay : Wp (removeLoop name (m.mailbox name).outboundHighestAdded ack
        ((m.mailbox name).outboundHighestAdded - (m.mailbox name).outboundHighestRemoved)
        (m.mailbox name).outboundHighestRemoved)
        (fun r t => r = (m.mailbox name).outboundHighestRemoved ∧ t = provided m name ∧
          (m.mailbox name).outboundHighestRemoved = max (m.mailbox name).outboundHighestRemoved
            (min (m.mailbox name).outboundHighestAdded ack))
        (fun _ t => t = provided m name) (provided m name) := by
      cases hfuel : (m.mailbox name).outboundHighestAdded -
          (m.mailbox name).outboundHighestRemoved with
      | zero => exact ⟨rfl, rfl, by omega⟩
      | succ fuel =>
        rw [removeLoop]
        apply wp_ite
        · intro _
          rw [mailboxDevice, wp_bind, wp_bind, wp_get, if_neg hdevice']
          rfl
        · intro hdone
          exact ⟨rfl, rfl, by omega⟩
    apply wp_mono hstay
    · rintro r t ⟨rfl, rfl, hmax⟩
      rw [if_neg (lt_irrefl _)]
      refine ⟨_, (m.inout name).outbox, rfl, ?_, fun k => ?_⟩
      · rw [← hmax, view_provided]
        rfl
      · rw [if_neg (by omega)]
    · rintro _ t rfl
      exact view_provided m name name

theorem exportMailbox_eq (inout : Mailbox) {log : List Body} {low : Nat}
    (h : ∀ k, inout.outbox.lookup k = if low < k then log[k - 1]? else none) :
    exportMailbox inout = { ack := inout.ack, outbox := numbered low (log.drop low) } := by
  have hmem : ∀ e, e ∈ inout.outbox.pairs ↔ e ∈ numbered low (log.drop low) := by
    rintro ⟨k, body⟩
    rw [Table.mem_pairs_iff, mem_numbered_iff, h, List.getElem?_drop]
    by_cases hk : low < k
    · have hindex : low + (k - low - 1) = k - 1 := by omega
      rw [if_pos hk, hindex]
      exact (and_iff_right hk).symm
    · rw [if_neg hk]
      simp [hk]
  have hsorted := pairwise_numbered low (log.drop low)
  have hnodup : inout.outbox.pairs.Nodup := Table.nodup_pairs _
  have hperm : (inout.outbox.pairs.insertionSort fun a b => a.1 ≤ b.1).Perm
      (numbered low (log.drop low)) :=
    (List.perm_insertionSort _ _).trans ((List.perm_ext_iff_of_nodup hnodup
      (hsorted.imp fun hlt he => absurd (congrArg Prod.fst he) (Nat.ne_of_lt hlt))).mpr hmem)
  have hpairwise : (inout.outbox.pairs.insertionSort fun a b => a.1 ≤ b.1).Pairwise
      fun a b => a.1 ≤ b.1 :=
    haveI : Std.Total fun a b : Nat × Body => a.1 ≤ b.1 := ⟨fun a b => Nat.le_total a.1 b.1⟩
    haveI : IsTrans (Nat × Body) fun a b => a.1 ≤ b.1 := ⟨fun _ _ _ => Nat.le_trans⟩
    List.pairwise_insertionSort _ _
  unfold exportMailbox
  congr 1
  apply hperm.eq_of_pairwise _ hpairwise (hsorted.imp Nat.le_of_lt)
  rintro ⟨k, body⟩ ⟨k', body'⟩ ha hb hle hle'
  obtain rfl : k = k' := Nat.le_antisymm hle hle'
  have hbody := (mem_numbered_iff.mp (hperm.mem_iff.mp ha)).2
  rw [(mem_numbered_iff.mp hb).2] at hbody
  rw [Option.some.inj hbody]

end Effects

section Elsewhere

variable {name : String}

/-- The mailboxes of the other remotes are as they were. -/
def Elsewhere (name : String) (m t : Machine) : Prop :=
  ∀ other, other ≠ name → t.view other = m.view other

instance : IsPreorder Machine (Elsewhere name) where
  refl _ _ _ := rfl
  trans _ _ _ h h' other ho := (h' other ho).trans (h other ho)

section Reads

variable {R : Machine → Machine → Prop} [IsPreorder Machine R]

instance (num : Nat) : Moves R (checkNat num) := by unfold checkNat; infer_instance

instance : Moves R mailboxDevice := by unfold mailboxDevice; infer_instance

instance (name : String) : Moves R (getMailbox name) := by
  unfold getMailbox
  apply moves_seq inferInstance
  intro m
  split <;> infer_instance

end Reads

theorem elsewhere_setInout (m : Machine) (i : Mailbox) : Elsewhere name m (m.setInout name i) := by
  intro other ho
  have hinout : (m.setInout name i).inout other = m.inout other := by
    rw [Machine.inout_setInout, if_neg ho]
  unfold Machine.view
  rw [hinout]
  rfl

theorem elsewhere_setState (m : Machine) (state : MailboxState) :
    Elsewhere name m (m.setState name state) := by
  intro other ho
  have hmailbox : (m.setState name state).mailbox other = m.mailbox other := by
    rw [Machine.mailbox_setState, if_neg ho]
  unfold Machine.view
  rw [hmailbox]
  rfl

instance (inout : Mailbox) : Moves (Elsewhere name) (setPeer name inout) :=
  moves_modify fun m => elsewhere_setInout m inout

instance (state : MailboxState) : Moves (Elsewhere name) (setMailbox name state) :=
  moves_modify fun m => elsewhere_setState m state

instance : Moves (Elsewhere name) (getOrCreatePeer name) := by
  unfold getOrCreatePeer
  apply moves_seq inferInstance
  intro m
  split <;> infer_instance

instance (msgnum : Nat) (body : Body) : Moves (Elsewhere name) (deviceAdd name msgnum body) := by
  unfold deviceAdd; infer_instance

instance (msgnum : Nat) : Moves (Elsewhere name) (deviceRemove name msgnum) := by
  unfold deviceRemove; infer_instance

instance (msgnum : Nat) : Moves (Elsewhere name) (deviceAckInbound name msgnum) := by
  unfold deviceAckInbound; infer_instance

instance : Moves (Elsewhere name) (provideMailbox name) := by
  unfold provideMailbox; infer_instance

instance (msg : Body) : Moves (Elsewhere name) (transmit name msg) := by
  unfold transmit; infer_instance

instance (receiver : ReceiverId) : Moves (Elsewhere name) (setReceiver name receiver) := by
  unfold setReceiver; infer_instance

instance : Moves (Elsewhere name) (addRemote name) := by
  have hnoted : Moves (Elsewhere name)
      (modify fun m => { m with vat.remotes := m.vat.remotes ++ [name] } : M PUnit) :=
    moves_modify fun _ _ _ => rfl
  unfold addRemote
  infer_instance

instance (receiver : Option ReceiverId) (body : Body) :
    Moves (Elsewhere name) (receive name receiver body) := by
  unfold receive
  cases receiver with
  | none => infer_instance
  | some _ =>
    apply moves_modify
    intro m other ho
    have hreceived : Machine.receivedFrom { m with received := m.received ++ [(name, body)] }
        other = m.receivedFrom other := by
      unfold Machine.receivedFrom
      rw [List.filter_append, List.filter_cons_of_neg (by simpa using ho.symm),
        List.filter_nil, List.append_nil]
    unfold Machine.view
    rw [hreceived]
    rfl

instance (receiver : Option ReceiverId) (d : Nat) (messages : List (Nat × Body)) :
    Moves (Elsewhere name) (deliverLoop name receiver d messages) := by
  induction messages generalizing d with
  | nil => exact moves_pure _
  | cons e messages ih =>
    unfold deliverLoop
    infer_instance

instance (messages : List (Nat × Body)) : Moves (Elsewhere name) (deliverMessages name messages) := by
  unfold deliverMessages; infer_instance

instance (added ack fuel r : Nat) : Moves (Elsewhere name) (removeLoop name added ack fuel r) := by
  induction fuel generalizing r with
  | zero => exact moves_pure _
  | succ fuel ih =>
    unfold removeLoop
    infer_instance

instance (ack : Nat) : Moves (Elsewhere name) (deliverAck name ack) := by
  unfold deliverAck; infer_instance

end Elsewhere

end AgoricSdk.VatTP
