import AgoricSdk.Inbound.Admission

/-!
What the limit of the inbound queue does. The allowance of a block is what the limit leaves of
the actions left over, and it is compared with the length of the whole queue, in which these are
still counted. Besides, a wallet message provisions its owner with an action of its own.
-/

namespace AgoricSdk.Inbound

open TransitionSystem

variable {α : Type} {k : Keeper α} {tx : List (Msg α)}

section Allowance

/-- A length as a 32-bit integer. -/
def capped (size : ℕ) : Int32 := if 2 ^ 31 - 1 < size then Int32.maxValue else Int32.ofNat size

theorem capped_toInt (size : ℕ) : (capped size).toInt = min (size : ℤ) (2 ^ 31 - 1) := by
  unfold capped
  split
  · have hmax : Int32.maxValue.toInt = 2 ^ 31 - 1 := by decide
    omega
  · rw [Int32.toInt_ofNat_of_lt (by omega)]
    omega

theorem inboundQueueLength_run (h : k.size < 2 ^ 63) :
    k.inboundQueueLength = .ok (capped k.size) := by
  unfold Keeper.inboundQueueLength capped
  rw [if_neg (by omega)]
  split
  · rfl
  · rfl

theorem remaining_toInt (queueMax : Int32) (size : ℕ) :
    (remaining queueMax (capped size)).toInt = max 0 (queueMax.toInt - (capped size).toInt) := by
  have hcapped := capped_toInt size
  unfold remaining
  by_cases hlt : capped size < queueMax
  · have hle := Int32.lt_iff_toInt_lt.mp hlt
    have hzero : (0 : Int32) ≤ capped size := by
      apply Int32.le_iff_toInt_le.mpr
      change 0 ≤ _
      omega
    rw [if_pos hlt, Int32.toInt_sub_of_le _ _ hzero (Int32.le_iff_toInt_le.mpr hle.le)]
    omega
  · have hle : ¬ (capped size).toInt < queueMax.toInt := fun h => hlt (Int32.lt_iff_toInt_lt.mpr h)
    rw [if_neg hlt]
    change 0 = _
    omega

/-- The limit of the queue, for delivery or for the mempool. -/
def limit (queueMax : Int32) (isCheckTx : Bool) : Int32 :=
  if isCheckTx then queueMax / 2 else queueMax

/-- The allowance is the one that was computed when the block began. -/
structure Block.Allowed (b : Block α) (queueMax : Int32) : Prop where
  max : queueSizeEntry b.keeper.params.queueMax queueInbound = some queueMax
  allowed : b.keeper.state.queueAllowed =
    [⟨queueInbound, remaining queueMax (capped b.leftover)⟩,
      ⟨queueInboundMempool, remaining (queueMax / 2) (capped b.leftover)⟩]

theorem Block.Allowed.entry {b : Block α} {queueMax : Int32} (h : b.Allowed queueMax)
    (isCheckTx : Bool) :
    queueSizeEntry b.keeper.state.queueAllowed
      (if isCheckTx then queueInboundMempool else queueInbound) =
      some (remaining (limit queueMax isCheckTx) (capped b.leftover)) := by
  rw [h.allowed]
  cases isCheckTx with
  | true => simp [queueSizeEntry, queueInbound, queueInboundMempool, limit]
  | false => simp [queueSizeEntry, queueInbound, limit]

theorem Block.Allowed.allowedInbound {b : Block α} {queueMax : Int32} (h : b.Allowed queueMax)
    (isCheckTx : Bool) :
    ((b.keeper.size + b.leftover : ℤ) < (limit queueMax isCheckTx).toInt →
      b.keeper.allowedInbound isCheckTx = .ok 1) ∧
    (¬ (b.keeper.size + b.leftover : ℤ) < (limit queueMax isCheckTx).toInt →
      b.keeper.allowedInbound isCheckTx = .ok 0 ∨
        ∃ err, b.keeper.allowedInbound isCheckTx = .error err) := by
  have hlimit := (limit queueMax isCheckTx).toInt_lt
  have hremaining := remaining_toInt (limit queueMax isCheckTx) b.leftover
  have hleftover := capped_toInt b.leftover
  have hsize := capped_toInt b.keeper.size
  unfold Keeper.allowedInbound
  dsimp only
  rw [h.entry isCheckTx]
  dsimp only
  by_cases hbig : 2 ^ 63 ≤ b.keeper.size
  · have herror : b.keeper.inboundQueueLength = .error (.queueSizeTooBig b.keeper.size) := by
      unfold Keeper.inboundQueueLength
      rw [if_pos hbig]
    rw [herror]
    exact ⟨fun hlt => by omega, fun _ => .inr ⟨_, rfl⟩⟩
  · rw [inboundQueueLength_run (by omega)]
    change (_ → (if _ then _ else _) = _) ∧ (_ → (if _ then _ else _) = _ ∨ _)
    by_cases hle : remaining (limit queueMax isCheckTx) (capped b.leftover) ≤ capped b.keeper.size
    · have hle' := Int32.le_iff_toInt_le.mp hle
      rw [if_pos hle]
      exact ⟨fun hlt => by omega, fun _ => .inl rfl⟩
    · have hgt : (capped b.keeper.size).toInt <
          (remaining (limit queueMax isCheckTx) (capped b.leftover)).toInt := by
        apply lt_of_not_ge
        exact fun hge => hle (Int32.le_iff_toInt_le.mpr hge)
      have hzero : (0 : Int32) ≤ capped b.keeper.size := by
        apply Int32.le_iff_toInt_le.mpr
        change 0 ≤ _
        omega
      have hsub := Int32.toInt_sub_of_le _ _ hzero (Int32.le_iff_toInt_le.mpr hgt.le)
      rw [if_neg hle]
      refine ⟨fun _ => ?_, fun hnot => by omega⟩
      split
      · rfl
      case isFalse hone =>
        have hnot : ¬ (1 : ℤ) < _ := fun hlt => hone (Int32.lt_iff_toInt_lt.mpr hlt)
        congr 1
        apply Int32.toInt_inj.mp
        change _ = 1
        omega

end Allowance

section Ante

def Msg.isInbound (msg : Msg α) : Bool := msg.getInboundMsgCount ≠ 0

/-- The messages of a transaction that are for the inbound queue. -/
def inboundMsgs (tx : List (Msg α)) : List (Msg α) := tx.filter Msg.isInbound

theorem msgCount_cases (msg : Msg α) :
    (msg.isInbound = false ∧ msg.getInboundMsgCount = 0) ∨
      (msg.isInbound = true ∧ msg.getInboundMsgCount = 1) := by
  cases msg
  case other => exact .inl ⟨rfl, rfl⟩
  all_goals exact .inr ⟨rfl, rfl⟩

theorem anteMsgs_none (isCheckTx : Bool) :
    k.anteMsgs isCheckTx 0 tx = .ok () ↔
      ∀ msg ∈ inboundMsgs tx, k.isPriorityMessage msg = true := by
  induction tx with
  | nil => exact ⟨fun _ => nofun, fun _ => rfl⟩
  | cons msg msgs ih =>
    unfold Keeper.anteMsgs inboundMsgs
    dsimp only
    rcases msgCount_cases msg with ⟨hinbound, hcount⟩ | ⟨hinbound, hcount⟩
    · rw [hcount, if_pos rfl, List.filter_cons_of_neg (by rw [hinbound]; exact Bool.false_ne_true)]
      exact ih
    · rw [hcount, List.filter_cons_of_pos hinbound, List.forall_mem_cons]
      rw [if_neg (by decide), if_neg (by decide)]
      dsimp only
      rw [if_neg (by decide)]
      cases hpriority : k.isPriorityMessage msg with
      | true =>
        rw [if_pos rfl]
        exact ⟨fun hok => ⟨rfl, ih.mp hok⟩, fun h => ih.mpr h.2⟩
      | false =>
        rw [if_neg Bool.false_ne_true]
        exact ⟨nofun, fun h => absurd h.1 Bool.false_ne_true⟩

/-- A transaction is admitted if it has no message for the queue, or its first one is allowed or
of high priority and the others are of high priority. -/
theorem anteHandle_ok {isCheckTx : Bool} (hallowed : k.allowedInbound isCheckTx = .ok 0 ∨
      k.allowedInbound isCheckTx = .ok 1 ∨ ∃ err, k.allowedInbound isCheckTx = .error err) :
    k.anteHandle isCheckTx tx = .ok () ↔
      inboundMsgs tx = [] ∨ ∃ msg msgs, inboundMsgs tx = msg :: msgs ∧
        (k.allowedInbound isCheckTx = .ok 1 ∨
          (k.allowedInbound isCheckTx = .ok 0 ∧ k.isPriorityMessage msg = true)) ∧
        ∀ m ∈ msgs, k.isPriorityMessage m = true := by
  unfold Keeper.anteHandle
  induction tx with
  | nil => exact ⟨fun _ => .inl rfl, fun _ => rfl⟩
  | cons msg msgs ih =>
    unfold Keeper.anteMsgs inboundMsgs
    dsimp only
    rcases msgCount_cases msg with ⟨hinbound, hcount⟩ | ⟨hinbound, hcount⟩
    · rw [hcount, if_pos rfl, List.filter_cons_of_neg (by rw [hinbound]; exact Bool.false_ne_true)]
      exact ih
    · rw [hcount, List.filter_cons_of_pos hinbound, if_neg (by decide), if_pos rfl]
      have hcons : ∀ P : Msg α → List (Msg α) → Prop,
          (msg :: msgs.filter Msg.isInbound = [] ∨ ∃ m ms,
            msg :: msgs.filter Msg.isInbound = m :: ms ∧ P m ms) ↔
            P msg (msgs.filter Msg.isInbound) := by
        intro P
        constructor
        · rintro (hnil | ⟨m, ms, heq, hP⟩)
          · cases hnil
          · cases heq
            exact hP
        · exact fun hP => .inr ⟨_, _, rfl, hP⟩
      rw [hcons]
      rcases hallowed with hzero | hone | ⟨err, herr⟩
      · rw [hzero]
        dsimp only
        rw [if_neg (by decide)]
        cases hpriority : k.isPriorityMessage msg with
        | true =>
          rw [if_pos rfl, anteMsgs_none]
          exact ⟨fun hall => ⟨.inr ⟨rfl, rfl⟩, hall⟩, fun h => h.2⟩
        | false =>
          rw [if_neg Bool.false_ne_true]
          exact ⟨nofun, fun h => by simp at h⟩
      · rw [hone]
        dsimp only
        rw [if_pos (by decide)]
        change k.anteMsgs isCheckTx 0 msgs = _ ↔ _
        rw [anteMsgs_none]
        exact ⟨fun hall => ⟨.inl rfl, hall⟩, fun h => h.2⟩
      · rw [herr]
        exact ⟨nofun, fun h => by simp at h⟩

end Ante

section Handling

/-- The actions of a message that go to the normal queue. -/
def Keeper.normalActions (k : Keeper α) : Msg α → List (Action α)
  | .deliverInbound => [.deliverInbound]
  | .walletAction owner =>
    (if k.provisioned owner then [] else [.autoProvision owner]) ++ [.walletAction owner]
  | .walletSpendAction owner =>
    (if k.provisioned owner then [] else [.autoProvision owner]) ++
      (if k.highPrioritySenders owner then [] else [.walletSpendAction owner])
  | .provision => [.provision]
  | .installBundle whole => if whole then [.installBundle] else []
  | .sendChunk last => if last then [.installBundle] else []
  | .other => []

/-- A message provisions its owner. -/
def Keeper.autoProvisions (k : Keeper α) : Msg α → Bool
  | .walletAction owner => !k.provisioned owner
  | .walletSpendAction owner => !k.provisioned owner
  | _ => false

/-- What handling messages leaves as it is, and what it adds to the normal queue. -/
structure Handles (k k' : Keeper α) (added : List (Action α)) : Prop where
  params : k'.params = k.params
  state : k'.state = k.state
  senders : k'.highPrioritySenders = k.highPrioritySenders
  provisioned : k'.provisioned = k.provisioned
  actionQueue : k'.actionQueue = k.actionQueue ++ added

theorem Handles.trans {k k' k'' : Keeper α} {added more : List (Action α)}
    (h : Handles k k' added) (h' : Handles k' k'' more) : Handles k k'' (added ++ more) where
  params := h'.params.trans h.params
  state := h'.state.trans h.state
  senders := h'.senders.trans h.senders
  provisioned := h'.provisioned.trans h.provisioned
  actionQueue := by rw [h'.actionQueue, h.actionQueue, List.append_assoc]

theorem routeAction_handles (k : Keeper α) (msg : Msg α) (action : Action α) :
    Handles k (k.routeAction msg action) (if k.isPriorityMessage msg then [] else [action]) := by
  unfold Keeper.routeAction
  split
  · exact ⟨rfl, rfl, rfl, rfl, (List.append_nil _).symm⟩
  · exact ⟨rfl, rfl, rfl, rfl, rfl⟩

theorem provisionIfNeeded_handles (k : Keeper α) (owner : α) :
    Handles k (k.provisionIfNeeded owner)
      (if k.provisioned owner then [] else [.autoProvision owner]) := by
  unfold Keeper.provisionIfNeeded
  split
  · exact ⟨rfl, rfl, rfl, rfl, (List.append_nil _).symm⟩
  · exact routeAction_handles k .provision _

theorem handle_handles (k : Keeper α) (msg : Msg α) :
    Handles k (k.handle msg) (k.normalActions msg) := by
  cases msg with
  | deliverInbound => exact routeAction_handles k .deliverInbound _
  | walletAction owner =>
    exact (provisionIfNeeded_handles k owner).trans (routeAction_handles _ (.walletAction owner) _)
  | walletSpendAction owner =>
    have hprovision := provisionIfNeeded_handles k owner
    have hroute := routeAction_handles (k.provisionIfNeeded owner) (.walletSpendAction owner)
      (.walletSpendAction owner)
    unfold Keeper.isPriorityMessage at hroute
    rw [hprovision.senders] at hroute
    exact hprovision.trans hroute
  | provision => exact routeAction_handles k .provision _
  | installBundle whole =>
    cases whole with
    | true => exact routeAction_handles k (.installBundle true) _
    | false => exact ⟨rfl, rfl, rfl, rfl, (List.append_nil _).symm⟩
  | sendChunk last =>
    cases last with
    | true => exact routeAction_handles k (.installBundle true) _
    | false => exact ⟨rfl, rfl, rfl, rfl, (List.append_nil _).symm⟩
  | other => exact ⟨rfl, rfl, rfl, rfl, (List.append_nil _).symm⟩

theorem normalActions_congr {k k' : Keeper α} {added : List (Action α)} (h : Handles k k' added)
    (msg : Msg α) : k'.normalActions msg = k.normalActions msg := by
  unfold Keeper.normalActions
  rw [h.senders, h.provisioned]

theorem handleAll_handles (k : Keeper α) (tx : List (Msg α)) :
    Handles k (k.handleAll tx) (tx.flatMap k.normalActions) := by
  induction tx generalizing k with
  | nil => exact ⟨rfl, rfl, rfl, rfl, (List.append_nil _).symm⟩
  | cons msg msgs ih =>
    have hfirst := handle_handles k msg
    have hrest := ih (k.handle msg)
    have hsame : (k.handle msg).normalActions = k.normalActions := by
      funext m
      exact normalActions_congr hfirst m
    rw [hsame] at hrest
    rw [List.flatMap_cons]
    exact hfirst.trans hrest

/-- Without provisioning a message adds an action to the normal queue only if it is one for the
inbound queue that is not of high priority, and then one. -/
theorem normalActions_length {msg : Msg α} (h : k.autoProvisions msg = false) :
    (k.normalActions msg).length ≤
      if msg.isInbound && !k.isPriorityMessage msg then 1 else 0 := by
  cases msg with
  | deliverInbound => exact Nat.le_refl 1
  | walletAction owner =>
    have hprovisioned : k.provisioned owner = true := by simpa [Keeper.autoProvisions] using h
    simp [Keeper.normalActions, hprovisioned, Keeper.isPriorityMessage, Msg.isInbound,
      Msg.getInboundMsgCount]
  | walletSpendAction owner =>
    have hprovisioned : k.provisioned owner = true := by simpa [Keeper.autoProvisions] using h
    cases hsender : k.highPrioritySenders owner with
    | true => simp [Keeper.normalActions, hprovisioned, hsender]
    | false =>
      simp [Keeper.normalActions, hprovisioned, hsender, Keeper.isPriorityMessage, Msg.isInbound,
        Msg.getInboundMsgCount]
  | provision => exact Nat.le_refl 1
  | installBundle whole =>
    cases whole with
    | true => exact Nat.le_refl 1
    | false => exact Nat.zero_le _
  | sendChunk last =>
    cases last with
    | true => exact Nat.le_refl 1
    | false => exact Nat.zero_le _
  | other => exact Nat.zero_le _

/-- The messages of a transaction that are for the inbound queue and not of high priority. -/
def Keeper.normalMsgs (k : Keeper α) (tx : List (Msg α)) : List (Msg α) :=
  (inboundMsgs tx).filter fun msg => !k.isPriorityMessage msg

theorem flatMap_normalActions_length (h : ∀ msg ∈ tx, k.autoProvisions msg = false) :
    (tx.flatMap k.normalActions).length ≤ (k.normalMsgs tx).length := by
  induction tx with
  | nil => exact Nat.le_refl 0
  | cons msg msgs ih =>
    rw [List.forall_mem_cons] at h
    have hfirst := normalActions_length h.1
    have hrest := ih h.2
    rw [List.flatMap_cons, List.length_append]
    unfold Keeper.normalMsgs inboundMsgs at hrest ⊢
    rw [List.filter_filter] at hrest ⊢
    rw [List.filter_cons]
    rw [Bool.and_comm] at hfirst
    split
    case isTrue hnormal =>
      rw [if_pos hnormal] at hfirst
      rw [List.length_cons]
      omega
    case isFalse hnormal =>
      rw [if_neg hnormal] at hfirst
      omega

end Handling

section Limit

/-- The only message for the inbound queue is not of high priority. -/
def Keeper.OnlyNormal (k : Keeper α) (tx : List (Msg α)) : Prop :=
  ∃ msg, inboundMsgs tx = [msg] ∧ k.isPriorityMessage msg = false

/-- A transaction with one normal message is admitted if and only if the queue has room. -/
def Verdict.Exact (v : Verdict α) (isCheckTx : Bool) : Prop :=
  ∀ queueMax, queueSizeEntry v.before.params.queueMax queueInbound = some queueMax →
    v.before.OnlyNormal v.tx →
      (v.admitted = true ↔ (v.before.size : ℤ) < (limit queueMax isCheckTx).toInt)

/-- The actions added to the normal queue had room in the inbound queue. -/
def Verdict.WithinLimit (v : Verdict α) : Prop :=
  ∀ queueMax, queueSizeEntry v.before.params.queueMax queueInbound = some queueMax →
    ∃ added, v.after.actionQueue = v.before.actionQueue ++ added ∧
      (added ≠ [] → (v.before.size + added.length : ℤ) ≤ queueMax.toInt)

/-- Nothing was left over, or it does not matter that it counts twice: the queue is at its
limit, or below it by more than was left over. -/
def Block.LeftoverHarmless (b : Block α) (limit : Int32) : Prop :=
  b.leftover = 0 ∨ limit.toInt ≤ b.keeper.size ∨
    (b.keeper.size + b.leftover : ℤ) < limit.toInt

/-- A normal message finds no room, or stands after another message for the queue. -/
def Block.Refuses (b : Block α) (tx : List (Msg α)) (limit : Int32) : Prop :=
  ∃ before msg after, inboundMsgs tx = before ++ msg :: after ∧
    b.keeper.isPriorityMessage msg = false ∧
      (before ≠ [] ∨ limit.toInt ≤ (b.keeper.size + b.leftover : ℤ))

/-- No owner is provisioned by the transaction, or the queue has room for this too, or the
transaction is refused. -/
def Block.ProvisionsFit (b : Block α) (tx : List (Msg α)) (limit : Int32) : Prop :=
  (∀ msg ∈ tx, b.keeper.autoProvisions msg = false) ∨
    (b.keeper.size + (tx.flatMap b.keeper.normalActions).length : ℤ) ≤ limit.toInt ∨
      b.Refuses tx limit

variable {b : Block α} {queueMax : Int32}

theorem Block.Allowed.anteHandle (h : b.Allowed queueMax) (isCheckTx : Bool) :
    b.keeper.anteHandle isCheckTx tx = .ok () ↔
      inboundMsgs tx = [] ∨ ∃ msg msgs, inboundMsgs tx = msg :: msgs ∧
        (b.keeper.allowedInbound isCheckTx = .ok 1 ∨
          (b.keeper.allowedInbound isCheckTx = .ok 0 ∧
            b.keeper.isPriorityMessage msg = true)) ∧
        ∀ m ∈ msgs, b.keeper.isPriorityMessage m = true := by
  obtain ⟨hroom, hfull⟩ := h.allowedInbound isCheckTx
  apply anteHandle_ok
  by_cases hlt : (b.keeper.size + b.leftover : ℤ) < (limit queueMax isCheckTx).toInt
  · exact .inr (.inl (hroom hlt))
  · rcases hfull hlt with hzero | herr
    · exact .inl hzero
    · exact .inr (.inr herr)

theorem Block.Allowed.allowed_one (h : b.Allowed queueMax) (isCheckTx : Bool) :
    b.keeper.allowedInbound isCheckTx = .ok 1 ↔
      (b.keeper.size + b.leftover : ℤ) < (limit queueMax isCheckTx).toInt := by
  obtain ⟨hroom, hfull⟩ := h.allowedInbound isCheckTx
  refine ⟨fun hone => ?_, hroom⟩
  by_contra hnot
  rcases hfull hnot with hzero | ⟨err, herr⟩
  · rw [hzero] at hone
    cases hone
  · rw [herr] at hone
    cases hone

theorem Block.Allowed.onlyNormal (h : b.Allowed queueMax) (isCheckTx : Bool)
    (htx : b.keeper.OnlyNormal tx) : b.keeper.anteHandle isCheckTx tx = .ok () ↔
      (b.keeper.size + b.leftover : ℤ) < (limit queueMax isCheckTx).toInt := by
  obtain ⟨msg, hmsgs, hnormal⟩ := htx
  rw [h.anteHandle, hmsgs, ← h.allowed_one]
  constructor
  · rintro (hnil | ⟨m, ms, heq, hone | ⟨-, hpriority⟩, -⟩)
    · cases hnil
    · exact hone
    · cases heq
      cases hnormal.symm.trans hpriority
  · exact fun hone => .inr ⟨msg, [], rfl, .inl hone, nofun⟩

theorem Block.Allowed.exact_iff (h : b.Allowed queueMax) {isCheckTx : Bool} {v : Verdict α}
    (hbefore : v.before = b.keeper)
    (hadmitted : v.admitted = true ↔ b.keeper.anteHandle isCheckTx v.tx = .ok ()) :
    v.Exact isCheckTx ↔
      (b.keeper.OnlyNormal v.tx → b.LeftoverHarmless (limit queueMax isCheckTx)) := by
  unfold Verdict.Exact Block.LeftoverHarmless
  rw [hbefore]
  constructor
  · intro hexact htx
    have hroom := hexact queueMax h.max htx
    rw [hadmitted, h.onlyNormal isCheckTx htx] at hroom
    omega
  · intro hharmless queueMax' hmax htx
    cases h.max.symm.trans hmax
    rw [hadmitted, h.onlyNormal isCheckTx htx]
    have hleft := hharmless htx
    omega

theorem Block.Allowed.normal_room (h : b.Allowed queueMax)
    (hok : b.keeper.anteHandle false tx = .ok ()) :
    b.keeper.normalMsgs tx = [] ∨ ((b.keeper.normalMsgs tx).length = 1 ∧
      (b.keeper.size + b.leftover : ℤ) < queueMax.toInt) := by
  have hone := h.allowed_one false
  unfold Keeper.normalMsgs
  rcases (h.anteHandle false).mp hok with hnil | ⟨msg, msgs, heq, hfirst, hrest⟩
  · rw [hnil]
    exact .inl rfl
  · have hnone : msgs.filter (fun m => !b.keeper.isPriorityMessage m) = [] := by
      apply List.filter_eq_nil_iff.mpr
      intro m hm
      rw [hrest m hm]
      exact Bool.false_ne_true
    rw [heq]
    rcases hfirst with hallowed | ⟨-, hpriority⟩
    · rw [List.filter_cons, hnone]
      split
      · exact .inr ⟨rfl, hone.mp hallowed⟩
      · exact .inl rfl
    · rw [List.filter_cons_of_neg (by rw [hpriority]; exact Bool.false_ne_true), hnone]
      exact .inl rfl

theorem Block.Allowed.not_refuses (h : b.Allowed queueMax)
    (hok : b.keeper.anteHandle false tx = .ok ()) : ¬ b.Refuses tx queueMax := by
  rintro ⟨before, msg, after, heq, hnormal, hrefused⟩
  have hone := h.allowed_one false
  rcases (h.anteHandle false).mp hok with hnil | ⟨m, ms, hcons, hfirst, hrest⟩
  · rw [heq] at hnil
    simp at hnil
  · rw [hcons] at heq
    cases before with
    | nil =>
      cases heq
      rcases hfirst with hallowed | ⟨-, hpriority⟩
      · have hlt := hone.mp hallowed
        unfold limit at hlt
        rcases hrefused with hnil | hfull
        · exact hnil rfl
        · rw [if_neg Bool.false_ne_true] at hlt
          omega
      · cases hnormal.symm.trans hpriority
    | cons m' before =>
      cases heq
      have hpriority := hrest msg (List.mem_append_right _ (List.mem_cons_self ..))
      cases hnormal.symm.trans hpriority

theorem Block.Allowed.withinLimit (h : b.Allowed queueMax) (fails : Bool)
    (hfit : b.ProvisionsFit tx queueMax) : (deliver b.keeper tx fails).WithinLimit := by
  intro queueMax' hmax
  have hsame : ∃ added, b.keeper.actionQueue = b.keeper.actionQueue ++ added ∧
      (added ≠ [] → (b.keeper.size + added.length : ℤ) ≤ queueMax'.toInt) :=
    ⟨[], (List.append_nil _).symm, fun hne => absurd rfl hne⟩
  unfold deliver at hmax ⊢
  cases hante : b.keeper.anteHandle false tx with
  | error err =>
    rw [hante] at hmax
    exact hsame
  | ok u =>
    rw [hante] at hmax
    cases h.max.symm.trans hmax
    cases fails with
    | true => exact hsame
    | false =>
      refine ⟨_, (handleAll_handles b.keeper tx).actionQueue, fun hne => ?_⟩
      rcases hfit with hnone | hroom | hrefuses
      · have hlength := flatMap_normalActions_length hnone
        have hpos := List.length_pos_iff.mpr hne
        rcases h.normal_room hante with hnil | ⟨hlengthOne, hlt⟩
        · rw [hnil, List.length_nil] at hlength
          omega
        · change (b.keeper.size + _ : ℤ) ≤ _
          omega
      · exact hroom
      · exact absurd hrefuses (h.not_refuses hante)

end Limit

section Runs

variable {c t : Chain α}

/-- The steps at which the limit is not missed: leftovers that count twice do not matter to the
transaction, and there is room for the provisions of its owners. -/
def countedOnce (c : Chain α) : ChainEvent α → Prop
  | .deliverTx tx _ => ∀ queueMax,
    queueSizeEntry c.block.keeper.params.queueMax queueInbound = some queueMax →
      (c.block.keeper.OnlyNormal tx → c.block.LeftoverHarmless queueMax) ∧
        c.block.ProvisionsFit tx queueMax
  | .checkTx tx => ∀ b ∈ c.committed, ∀ queueMax,
    queueSizeEntry b.keeper.params.queueMax queueInbound = some queueMax →
      b.keeper.OnlyNormal tx → b.LeftoverHarmless (limit queueMax true)
  | _ => True

/-- The allowances are those of the blocks, and every verdict so far is right. -/
structure ChainInv (c : Chain α) : Prop where
  current : c.inBlock = true → ∃ queueMax, c.block.Allowed queueMax
  committed : ∀ b ∈ c.committed, ∃ queueMax, b.Allowed queueMax
  deliveries : ∀ v ∈ c.deliveries, v.Exact false ∧ v.WithinLimit
  checks : ∀ v ∈ c.checks, v.Exact true

theorem updateQueueAllowed_allowed {k' : Keeper α} (h : k.updateQueueAllowed = .ok k') :
    ∃ queueMax, Block.Allowed ⟨k', k.size⟩ queueMax := by
  unfold Keeper.updateQueueAllowed at h
  cases hmax : queueSizeEntry k.params.queueMax queueInbound with
  | none =>
    rw [hmax] at h
    cases h
  | some queueMax =>
    rw [hmax] at h
    by_cases hbig : 2 ^ 63 ≤ k.size
    · unfold Keeper.inboundQueueLength at h
      rw [if_pos hbig] at h
      cases h
    · rw [inboundQueueLength_run (by omega)] at h
      cases h
      exact ⟨queueMax, hmax, rfl⟩

theorem Block.Allowed.deliver {b : Block α} {queueMax : Int32} (h : b.Allowed queueMax)
    (fails : Bool) :
    Block.Allowed ⟨(Inbound.deliver b.keeper tx fails).after, b.leftover⟩ queueMax := by
  unfold Inbound.deliver
  cases b.keeper.anteHandle false tx with
  | error err => exact h
  | ok u =>
    cases fails with
    | true => exact h
    | false =>
      have hhandles := handleAll_handles b.keeper tx
      constructor
      · change queueSizeEntry (b.keeper.handleAll tx).params.queueMax queueInbound = _
        rw [hhandles.params]
        exact h.max
      · change (b.keeper.handleAll tx).state.queueAllowed = _
        rw [hhandles.state]
        exact h.allowed

theorem deliver_admitted (k : Keeper α) (tx : List (Msg α)) (fails : Bool) :
    (deliver k tx fails).before = k ∧ (deliver k tx fails).tx = tx ∧
      ((deliver k tx fails).admitted = true ↔ k.anteHandle false tx = .ok ()) := by
  unfold deliver
  cases k.anteHandle false tx with
  | error err => exact ⟨rfl, rfl, nofun, nofun⟩
  | ok u => exact ⟨rfl, rfl, fun _ => rfl, fun _ => rfl⟩

theorem check_admitted :
    (check k tx).admitted = true ↔ k.anteHandle true tx = .ok () := by
  unfold check
  cases k.anteHandle true tx with
  | error err => exact ⟨nofun, nofun⟩
  | ok u => exact ⟨fun _ => rfl, fun _ => rfl⟩

theorem ChainInv.step (h : ChainInv c) {event : ChainEvent α} (hok : countedOnce c event)
    (hstep : chainStep c event = some t) : ChainInv t := by
  cases event with
  | beginBlock =>
    unfold chainStep at hstep
    dsimp only at hstep
    obtain ⟨-, hstep⟩ := Option.ite_none_left_eq_some.mp hstep
    cases hupdate : c.block.keeper.updateQueueAllowed with
    | error err =>
      rw [hupdate] at hstep
      cases hstep
    | ok keeper =>
      rw [hupdate] at hstep
      cases hstep
      exact { h with current := fun _ => updateQueueAllowed_allowed hupdate }
  | deliverTx tx fails =>
    obtain ⟨hin, hstep⟩ := Option.ite_none_right_eq_some.mp hstep
    cases hstep
    obtain ⟨queueMax, hallowed⟩ := h.current hin
    obtain ⟨hharmless, hfit⟩ := hok queueMax hallowed.max
    obtain ⟨hbefore, htx, hadmitted⟩ := deliver_admitted c.block.keeper tx fails
    refine { h with current := fun _ => ⟨queueMax, hallowed.deliver fails⟩, deliveries := ?_ }
    rw [List.forall_mem_append]
    refine ⟨h.deliveries, fun v hv => ?_⟩
    rw [List.mem_singleton.mp hv]
    refine ⟨(hallowed.exact_iff hbefore ?_).mpr ?_, hallowed.withinLimit fails hfit⟩
    · rw [htx]
      exact hadmitted
    · rw [htx]
      exact hharmless
  | checkTx tx =>
    unfold chainStep at hstep
    dsimp only at hstep
    cases hcommitted : c.committed with
    | none =>
      rw [hcommitted] at hstep
      cases hstep
    | some b =>
      rw [hcommitted] at hstep
      cases hstep
      obtain ⟨queueMax, hallowed⟩ := h.committed b hcommitted
      refine ⟨h.current, fun b' hb' => h.committed b' (hcommitted.trans hb'), h.deliveries, ?_⟩
      rw [List.forall_mem_append]
      refine ⟨h.checks, fun v hv => ?_⟩
      rw [List.mem_singleton.mp hv]
      exact (hallowed.exact_iff rfl check_admitted).mpr
        (hok b hcommitted queueMax hallowed.max)
  | endBlock highPriority actions highPrioritySenders provisioned =>
    obtain ⟨hin, hstep⟩ := Option.ite_none_right_eq_some.mp hstep
    cases hstep
    obtain ⟨queueMax, hallowed⟩ := h.current hin
    refine { h with current := nofun, committed := fun b hb => ?_ }
    cases hb
    exact ⟨queueMax, hallowed.max, hallowed.allowed⟩

/-- In every run of such steps the queue is filled exactly to its limit. -/
theorem inboundQueue_filledToLimit (h : (inboundChain α).Reachable countedOnce c) :
    (∀ v ∈ c.deliveries, v.Exact false ∧ v.WithinLimit) ∧ ∀ v ∈ c.checks, v.Exact true := by
  have hinv : ChainInv c := by
    apply h.invariant
    · rintro s ⟨keeper, rfl⟩
      exact ⟨nofun, nofun, nofun, nofun⟩
    · exact fun s event t hs hok hstep => hs.step hok hstep
  exact ⟨hinv.deliveries, hinv.checks⟩

/-- A queue that may hold two actions, with some left over. -/
def queueOfTwo (leftover : List (Action ℕ)) : Keeper ℕ where
  params := ⟨[⟨queueInbound, 2⟩]⟩
  actionQueue := leftover
  highPrioritySenders _ := false
  provisioned _ := true

theorem inboundQueue_filledToLimit_empty : ∃ c : Chain ℕ,
    (c.deliveries.map Verdict.admitted = [true] ∧ c.block.keeper.size = 1) ∧
      (∀ v ∈ c.deliveries, v.Exact false ∧ v.WithinLimit) ∧ ∀ v ∈ c.checks, v.Exact true := by
  have hrun : ((chainStep { block := ⟨queueOfTwo [], 0⟩ } .beginBlock).bind fun c =>
      (chainStep c (.deliverTx [.provision] false)).map fun t =>
        (c.block.leftover, t.deliveries.map Verdict.admitted, t.block.keeper.size)) =
      some (0, [true], 1) := by
    decide +kernel
  obtain ⟨c, hc, hrun⟩ := Option.bind_eq_some_iff.mp hrun
  obtain ⟨t, ht, heq⟩ := Option.map_eq_some_iff.mp hrun
  simp only [Prod.mk.injEq] at heq
  obtain ⟨hleftover, hadmitted, hsize⟩ := heq
  have hbegun : (inboundChain ℕ).Reachable countedOnce c :=
    .step (a := .beginBlock) (.init ⟨queueOfTwo [], rfl⟩) trivial hc
  have hok : countedOnce c (.deliverTx [.provision] false) := ?_
  · exact ⟨t, ⟨hadmitted, hsize⟩, inboundQueue_filledToLimit (.step hbegun hok ht)⟩
  intro queueMax _
  refine ⟨fun _ => .inl hleftover, .inl ?_⟩
  intro msg hmsg
  rw [List.mem_singleton.mp hmsg]
  rfl

/-- One action that is left over takes two of the places. -/
theorem inboundQueue_leftover_twice : ¬ ∀ c : Chain ℕ,
    (inboundChain ℕ).Reachable anyStep c →
      (∀ v ∈ c.deliveries, v.Exact false ∧ v.WithinLimit) ∧ ∀ v ∈ c.checks, v.Exact true := by
  intro hall
  have hrun : ((inboundChain ℕ).runWhile anyStep { block := ⟨queueOfTwo [.provision], 0⟩ }
      [.beginBlock, .deliverTx [.provision] false]).map (fun c =>
        c.deliveries.map fun v => (v.tx, v.before.size,
          [v.before.isPriorityMessage Msg.provision, v.admitted,
            decide (queueSizeEntry v.before.params.queueMax queueInbound = some 2)])) =
      some [([Msg.provision], 1, [false, false, true])] := by
    decide +kernel
  obtain ⟨c, hc, hmap⟩ := Option.map_eq_some_iff.mp hrun
  have hreachable : (inboundChain ℕ).Reachable anyStep c :=
    .of_runWhile (.init ⟨queueOfTwo [.provision], rfl⟩) hc
  obtain ⟨v, hv, heq⟩ : ∃ v ∈ c.deliveries, (v.tx, v.before.size,
      [v.before.isPriorityMessage Msg.provision, v.admitted,
        decide (queueSizeEntry v.before.params.queueMax queueInbound = some 2)]) =
      ([Msg.provision], 1, [false, false, true]) := by
    apply List.mem_map.mp
    rw [hmap]
    exact List.mem_singleton_self _
  simp only [Prod.mk.injEq, List.cons.injEq, decide_eq_true_iff] at heq
  obtain ⟨htx, hsize, hpriority, hadmitted, hmax, -⟩ := heq
  have hexact := ((hall c hreachable).1 v hv).1 2 hmax
    ⟨Msg.provision, by rw [htx]; rfl, hpriority⟩
  have hlt : (v.before.size : ℤ) < (limit 2 false).toInt := by
    rw [hsize]
    decide
  rw [hexact.mpr hlt] at hadmitted
  cases hadmitted

end Runs

end AgoricSdk.Inbound
