import AgoricSdk.Lib.OrderedText
import AgoricSdk.Lib.Transition
import AgoricSdk.Portfolio.NonceManager

/-!
Messages that the owners of wallets have signed. Each waits for its owner to be found, for the
time, and for a storage node; others take their steps in between. Whether a message is accepted
is decided in one turn, as soon as the time is known. Questions for the time are answered in
the order in which they were asked.
-/

namespace AgoricSdk.Portfolio

section Handler

variable {D Address Op : Type}

structure EIP712Data (D : Type) where
  verifiedSigner : Option String
  hash : Option String
  signedData : D

/-- What the handler uses of the libraries for typed data, and what it takes from a message. -/
structure MessageUtils (D Address Op : Type) where
  hashTypedData : D → String
  getAddress : String → Option Address
  recoverAddress : String → D → Option Address
  extractOperationDetails : D → Address → Option (ℕ × ℕ × Op)

structure MessageDetails (Address Op : Type) where
  key : NonceKeyData Address
  operationDetails : Op
  deriving DecidableEq

inductive HandlerFault where
  | deadlinePassed
  | deadlineTooFar
  | nonce (fault : NonceFault)
  deriving DecidableEq

/-- The hash that the submitter expects, if any, is that of the data. -/
def checkHash (utils : MessageUtils D Address Op) (messageData : EIP712Data D) : Bool :=
  match messageData.hash with
  | none => true
  | some hash => (utils.hashTypedData messageData.signedData).toLower = hash.toLower

def walletOwnerOf (utils : MessageUtils D Address Op) (messageData : EIP712Data D) :
    Option Address :=
  match messageData.verifiedSigner with
  | none | some "" =>
    utils.recoverAddress (utils.hashTypedData messageData.signedData) messageData.signedData
  | some verifiedSigner => utils.getAddress verifiedSigner

def detailsOf (utils : MessageUtils D Address Op) (messageData : EIP712Data D) :
    Option (MessageDetails Address Op) := do
  let walletOwner ← walletOwnerOf utils messageData
  let (nonce, deadline, operationDetails) ←
    utils.extractOperationDetails messageData.signedData walletOwner
  return { key := { walletOwner, nonce, deadline }, operationDetails }

/-- One day. -/
def MAX_YMAX_DEADLINE_OFFSET_SECONDS : ℕ := 60 * 60 * 24

/-- The turn in which a message is accepted or refused. -/
def acceptMessage (kit : PassableKit Address) [LinearOrder Address] (localChainTime : ℕ)
    (key : NonceKeyData Address) : EStateM HandlerFault NonceStores Unit := do
  (removeExpiredNonces kit localChainTime).adaptExcept .nonce
  if key.deadline < localChainTime then throw .deadlinePassed
  else if ¬ key.deadline ≤ localChainTime + MAX_YMAX_DEADLINE_OFFSET_SECONDS then
    throw .deadlineTooFar
  else (insertNonce kit key).adaptExcept .nonce

/-- A message about which has been decided. -/
structure Processed (Address Op : Type) where
  details : MessageDetails Address Op
  localChainTime : ℕ
  result : Except HandlerFault Unit

structure HandlerState (D Address Op : Type) where
  now : ℕ
  stores : NonceStores := {}
  recovering : List (EIP712Data D) := []
  asking : List (MessageDetails Address Op) := []
  answered : List (MessageDetails Address Op × ℕ) := []
  /-- Messages about which has been decided, in this order. -/
  processed : List (Processed Address Op) := []
  makingNode : List (MessageDetails Address Op) := []
  /-- The messages with which `handleOperation` was called. -/
  handled : List (MessageDetails Address Op) := []

inductive HandlerEvent (D : Type) where
  | handleMessage (messageData : EIP712Data D)
  | recovered (i : ℕ)
  | timeAnswered
  | timeReceived
  | nodeMade (i : ℕ) (made : Bool)
  | clock (now : ℕ)

def handlerStep (utils : MessageUtils D Address Op) (kit : PassableKit Address)
    [LinearOrder Address] (s : HandlerState D Address Op) :
    HandlerEvent D → Option (HandlerState D Address Op)
  | .handleMessage messageData =>
    some <| if checkHash utils messageData then
      { s with recovering := s.recovering ++ [messageData] } else s
  | .recovered i =>
    s.recovering[i]?.map fun messageData =>
      { s with
        recovering := s.recovering.eraseIdx i
        asking := s.asking ++ (detailsOf utils messageData).toList }
  | .timeAnswered =>
    match s.asking with
    | [] => none
    | details :: asking => some { s with asking, answered := s.answered ++ [(details, s.now)] }
  | .timeReceived =>
    match s.answered with
    | [] => none
    | (details, localChainTime) :: answered =>
      match acceptMessage kit localChainTime details.key s.stores with
      | .ok _ stores =>
        some { s with
          answered, stores
          processed := s.processed ++ [⟨details, localChainTime, .ok ()⟩]
          makingNode := s.makingNode ++ [details] }
      | .error fault stores =>
        some { s with
          answered, stores
          processed := s.processed ++ [⟨details, localChainTime, .error fault⟩] }
  | .nodeMade i made =>
    s.makingNode[i]?.map fun details =>
      { s with
        makingNode := s.makingNode.eraseIdx i
        handled := if made then s.handled ++ [details] else s.handled }
  | .clock now => if s.now ≤ now then some { s with now } else none

def messageHandler (utils : MessageUtils D Address Op) (kit : PassableKit Address)
    [LinearOrder Address] : TransitionSystem (HandlerState D Address Op) (HandlerEvent D) where
  init s := ∃ now, s = { now }
  step := handlerStep utils kit

end Handler

section Accepting

variable {Address : Type} [LinearOrder Address] {kit : PassableKit Address}
variable {live : NonceKeyData Address → Prop} {s : NonceStores}

/-- A message is within its time and uses no nonce that its owner has in use. -/
def Acceptable (live : NonceKeyData Address → Prop) (localChainTime : ℕ)
    (key : NonceKeyData Address) : Prop :=
  localChainTime ≤ key.deadline ∧
    key.deadline ≤ localChainTime + MAX_YMAX_DEADLINE_OFFSET_SECONDS ∧
      ∀ key', live key' → key.Conflicts key' → key'.deadline < localChainTime

theorem acceptMessage_spec (hkit : kit.CompactOrdered) (h : Holds kit live s) (now : ℕ)
    (key : NonceKeyData Address) :
    (∃ t, acceptMessage kit now key s = .ok () t ∧ Acceptable live now key ∧
      Holds kit (fun key' => key' = key ∨ live key' ∧ now ≤ key'.deadline) t) ∨
    ∃ fault t, acceptMessage kit now key s = .error fault t ∧ ¬ Acceptable live now key ∧
      Holds kit (fun key' => live key' ∧ now ≤ key'.deadline) t := by
  obtain ⟨t, hrun, ht⟩ := removeExpiredNonces_spec hkit now h
  have hstart : acceptMessage kit now key s =
      (if key.deadline < now then throw .deadlinePassed
        else if ¬ key.deadline ≤ now + MAX_YMAX_DEADLINE_OFFSET_SECONDS then throw .deadlineTooFar
        else (insertNonce kit key).adaptExcept .nonce : EStateM HandlerFault NonceStores Unit) t := by
    change EStateM.bind (EStateM.adaptExcept _ _) _ s = _
    unfold EStateM.bind EStateM.adaptExcept
    rw [hrun]
  rw [hstart]
  by_cases hpassed : key.deadline < now
  · rw [if_pos hpassed]
    exact .inr ⟨_, t, rfl, fun hok => not_le_of_gt hpassed hok.1, ht⟩
  rw [if_neg hpassed]
  by_cases hfar : key.deadline ≤ now + MAX_YMAX_DEADLINE_OFFSET_SECONDS
  · rw [if_neg (not_not.mpr hfar)]
    by_cases hused : ∃ key', (live key' ∧ now ≤ key'.deadline) ∧ key.Conflicts key'
    · obtain ⟨key', hlive, hconflict⟩ := hused
      refine .inr ⟨.nonce .alreadyUsed, t, ?_, ?_, ht⟩
      · unfold EStateM.adaptExcept
        rw [insertNonce_used hkit ht hlive hconflict]
      · exact fun hok => not_le_of_gt (hok.2.2 key' hlive.1 hconflict) hlive.2
    · obtain ⟨u, hinsert, hu⟩ := insertNonce_fresh hkit ht fun key' hlive hconflict =>
        hused ⟨key', hlive, hconflict⟩
      refine .inl ⟨u, ?_, ⟨not_lt.mp hpassed, hfar, ?_⟩, hu⟩
      · unfold EStateM.adaptExcept
        rw [hinsert]
      · intro key' hlive hconflict
        apply lt_of_not_ge
        exact fun hle => hused ⟨key', ⟨hlive, hle⟩, hconflict⟩
  · rw [if_pos hfar]
    exact .inr ⟨_, t, rfl, fun hok => hfar hok.2.1, ht⟩

end Accepting

section Safety

variable {D Address Op : Type} [LinearOrder Address]

def Processed.accepted (p : Processed Address Op) : Bool := p.result matches .ok ()

/-- The messages accepted, in this order. -/
def acceptedOf (processed : List (Processed Address Op)) : List (Processed Address Op) :=
  processed.filter Processed.accepted

/-- When expired nonces were last removed. -/
def lastTime (processed : List (Processed Address Op)) : ℕ :=
  (processed.getLast?.map Processed.localChainTime).getD 0

/-- The nonces of the messages that were accepted. -/
def Uses (processed : List (Processed Address Op)) (key : NonceKeyData Address) : Prop :=
  ∃ p ∈ acceptedOf processed, p.details.key = key

/-- What holds at any time of the messages that have been decided and handled. -/
structure NoReplay (kit : PassableKit Address) (s : HandlerState D Address Op) : Prop where
  /-- A nonce is used again only after the deadline of the message that used it. -/
  reuse : (acceptedOf s.processed).Pairwise fun p q =>
    p.details.key.Conflicts q.details.key → p.details.key.deadline < q.localChainTime
  /-- No message is handled twice, and none that was not accepted. -/
  once : (s.handled.map MessageDetails.key).Nodup ∧
    List.Subperm s.handled ((acceptedOf s.processed).map Processed.details)
  /-- Only its deadline and the messages accepted before decide about a message. -/
  decided : ∀ before p after, s.processed = before ++ p :: after →
    (p.accepted ↔ Acceptable (Uses before) p.localChainTime p.details.key)
  /-- Both stores hold the nonces used that had not expired when they were last looked at. -/
  stores : Holds kit (fun key => Uses s.processed key ∧ lastTime s.processed ≤ key.deadline) s.stores

/-- The invariant of the handler: times do not decrease, and messages accepted wait or have
been handled. -/
structure HandlerInv (kit : PassableKit Address) (s : HandlerState D Address Op) : Prop where
  times : (lastTime s.processed :: s.answered.map Prod.snd ++ [s.now]).Pairwise (· ≤ ·)
  reuse : (acceptedOf s.processed).Pairwise fun p q =>
    p.details.key.Conflicts q.details.key → p.details.key.deadline < q.localChainTime
  inTime : ∀ p ∈ acceptedOf s.processed, p.localChainTime ≤ p.details.key.deadline
  waiting : List.Subperm (s.handled ++ s.makingNode)
    ((acceptedOf s.processed).map Processed.details)
  decided : ∀ before p after, s.processed = before ++ p :: after →
    (p.accepted ↔ Acceptable (Uses before) p.localChainTime p.details.key)
  stores : Holds kit (fun key => Uses s.processed key ∧ lastTime s.processed ≤ key.deadline) s.stores

variable {kit : PassableKit Address} {utils : MessageUtils D Address Op}
variable {s t : HandlerState D Address Op} {processed : List (Processed Address Op)}
variable {p : Processed Address Op} {key : NonceKeyData Address}

omit [LinearOrder Address] in
theorem acceptedOf_concat (processed : List (Processed Address Op)) (p : Processed Address Op) :
    acceptedOf (processed ++ [p]) = acceptedOf processed ++ if p.accepted then [p] else [] := by
  unfold acceptedOf
  rw [List.filter_append, List.filter_singleton]
  cases p.accepted <;> rfl

omit [LinearOrder Address] in
theorem lastTime_concat : lastTime (processed ++ [p]) = p.localChainTime := by
  unfold lastTime
  rw [List.getLast?_concat]
  rfl

omit [LinearOrder Address] in
theorem uses_concat : Uses (processed ++ [p]) key ↔
    (p.accepted = true ∧ p.details.key = key) ∨ Uses processed key := by
  unfold Uses
  rw [acceptedOf_concat]
  constructor
  · rintro ⟨q, hq, hkey⟩
    rcases List.mem_append.mp hq with hq | hq
    · exact .inr ⟨q, hq, hkey⟩
    · split at hq
      case isTrue haccepted =>
        cases List.mem_singleton.mp hq
        exact .inl ⟨haccepted, hkey⟩
      case isFalse => exact absurd hq List.not_mem_nil
  · rintro (⟨haccepted, hkey⟩ | ⟨q, hq, hkey⟩)
    · refine ⟨p, List.mem_append_right _ ?_, hkey⟩
      rw [if_pos haccepted]
      exact List.mem_singleton_self p
    · exact ⟨q, List.mem_append_left _ hq, hkey⟩

theorem forall_split_concat {α : Type} {P : List α → α → Prop} {xs : List α} {x : α}
    (h : ∀ before y after, xs = before ++ y :: after → P before y) (hx : P xs x) :
    ∀ before y after, xs ++ [x] = before ++ y :: after → P before y := by
  intro before y after hsplit
  rcases List.eq_nil_or_concat after with rfl | ⟨rest, z, rfl⟩
  · obtain ⟨rfl, hy⟩ := List.append_inj' hsplit rfl
    cases hy
    exact hx
  · rw [List.concat_eq_append, ← List.cons_append, ← List.append_assoc] at hsplit
    obtain ⟨hxs, -⟩ := List.append_inj' hsplit rfl
    exact h before y rest hxs

omit [LinearOrder Address] in
/-- Nonces that had expired before do not count at a later time. -/
theorem acceptable_uses {last now : ℕ} (hlast : last ≤ now) :
    Acceptable (fun key => Uses processed key ∧ last ≤ key.deadline) now key ↔
      Acceptable (Uses processed) now key := by
  unfold Acceptable
  constructor
  · rintro ⟨htime, hfar, hnonces⟩
    refine ⟨htime, hfar, fun key' huses hconflict => ?_⟩
    by_cases hlive : last ≤ key'.deadline
    · exact hnonces key' ⟨huses, hlive⟩ hconflict
    · omega
  · rintro ⟨htime, hfar, hnonces⟩
    exact ⟨htime, hfar, fun key' hlive hconflict => hnonces key' hlive.1 hconflict⟩

theorem HandlerInv.timeReceived (h : HandlerInv kit s) (hkit : kit.CompactOrdered)
    (hstep : handlerStep utils kit s .timeReceived = some t) : HandlerInv kit t := by
  unfold handlerStep at hstep
  dsimp only at hstep
  cases hanswered : s.answered with
  | nil =>
    rw [hanswered] at hstep
    cases hstep
  | cons first answered =>
    obtain ⟨details, now⟩ := first
    rw [hanswered] at hstep
    dsimp only at hstep
    have htimes := h.times
    rw [hanswered] at htimes
    obtain ⟨hbefore, htimes⟩ := List.pairwise_cons.mp htimes
    have hlast : lastTime s.processed ≤ now := hbefore now List.mem_cons_self
    rcases acceptMessage_spec hkit h.stores now details.key with
      ⟨stores, hrun, hacceptable, hstores⟩ | ⟨fault, stores, hrun, hrefused, hstores⟩
    · rw [hrun] at hstep
      cases hstep
      rw [acceptable_uses hlast] at hacceptable
      have haccepted : acceptedOf (s.processed ++ [⟨details, now, .ok ()⟩]) =
          acceptedOf s.processed ++ [⟨details, now, .ok ()⟩] := acceptedOf_concat _ _
      constructor
      case times =>
        rw [lastTime_concat]
        exact htimes
      case reuse =>
        rw [haccepted]
        refine List.pairwise_append.mpr ⟨h.reuse, List.pairwise_singleton _ _, ?_⟩
        intro p hp q hq hconflict
        cases List.mem_singleton.mp hq
        exact hacceptable.2.2 _ ⟨p, hp, rfl⟩ ⟨hconflict.1.symm, hconflict.2.symm⟩
      case inTime =>
        rw [haccepted]
        intro p hp
        rcases List.mem_append.mp hp with hp | hp
        · exact h.inTime p hp
        · cases List.mem_singleton.mp hp
          exact hacceptable.1
      case waiting =>
        rw [haccepted, List.map_append, ← List.append_assoc]
        exact h.waiting.append (List.Subperm.refl _)
      case decided =>
        exact forall_split_concat h.decided ⟨fun _ => hacceptable, fun _ => rfl⟩
      case stores =>
        apply hstores.congr
        intro key'
        rw [uses_concat, lastTime_concat]
        constructor
        · rintro (rfl | ⟨⟨huses, -⟩, htime⟩)
          · exact ⟨.inl ⟨rfl, rfl⟩, hacceptable.1⟩
          · exact ⟨.inr huses, htime⟩
        · rintro ⟨⟨-, rfl⟩ | huses, htime⟩
          · exact .inl rfl
          · exact .inr ⟨⟨huses, hlast.trans htime⟩, htime⟩
    · rw [hrun] at hstep
      cases hstep
      rw [acceptable_uses hlast] at hrefused
      have haccepted : acceptedOf (s.processed ++ [⟨details, now, .error fault⟩]) =
          acceptedOf s.processed := (acceptedOf_concat _ _).trans (List.append_nil _)
      constructor
      case times =>
        rw [lastTime_concat]
        exact htimes
      case reuse =>
        rw [haccepted]
        exact h.reuse
      case inTime =>
        rw [haccepted]
        exact h.inTime
      case waiting =>
        rw [haccepted]
        exact h.waiting
      case decided =>
        exact forall_split_concat h.decided ⟨nofun, fun hok => absurd hok hrefused⟩
      case stores =>
        apply hstores.congr
        intro key'
        rw [uses_concat, lastTime_concat]
        constructor
        · rintro ⟨⟨huses, -⟩, htime⟩
          exact ⟨.inr huses, htime⟩
        · rintro ⟨⟨hfalse, -⟩ | huses, htime⟩
          · cases hfalse
          · exact ⟨⟨huses, hlast.trans htime⟩, htime⟩

theorem HandlerInv.step (h : HandlerInv kit s) (hkit : kit.CompactOrdered)
    {event : HandlerEvent D} (hstep : handlerStep utils kit s event = some t) :
    HandlerInv kit t := by
  cases event with
  | handleMessage messageData =>
    cases hstep
    split
    · exact { h with }
    · exact h
  | recovered i =>
    obtain ⟨messageData, -, rfl⟩ := Option.map_eq_some_iff.mp hstep
    exact { h with }
  | timeAnswered =>
    unfold handlerStep at hstep
    dsimp only at hstep
    split at hstep
    · cases hstep
    · cases hstep
      exact { h with
        times := by
          have htimes := h.times
          rw [List.map_append, ← List.cons_append]
          refine List.pairwise_append.mpr ⟨htimes, List.pairwise_singleton _ _, ?_⟩
          intro time htime now hnow
          cases List.mem_singleton.mp hnow
          rcases List.mem_append.mp htime with htime | htime
          · exact (List.pairwise_append.mp htimes).2.2 time htime _ (List.mem_singleton_self _)
          · exact (List.mem_singleton.mp htime).le }
  | timeReceived => exact h.timeReceived hkit hstep
  | nodeMade i made =>
    obtain ⟨details, hdetails, rfl⟩ := Option.map_eq_some_iff.mp hstep
    have hperm : List.Subperm ((if made then s.handled ++ [details] else s.handled) ++
        s.makingNode.eraseIdx i) (s.handled ++ s.makingNode) := by
      obtain ⟨hi, hget⟩ := List.getElem?_eq_some_iff.mp hdetails
      have herase := List.getElem_cons_eraseIdx_perm hi
      rw [hget] at herase
      cases made with
      | true =>
        rw [if_pos rfl, List.append_assoc]
        exact (herase.append_left s.handled).subperm
      | false =>
        rw [if_neg Bool.false_ne_true]
        exact ((List.eraseIdx_sublist _ _).append_left s.handled).subperm
    exact { h with waiting := hperm.trans h.waiting }
  | clock now =>
    obtain ⟨hnow, hstep⟩ := Option.ite_none_right_eq_some.mp hstep
    cases hstep
    exact { h with
      times := by
        obtain ⟨htimes, -, hall⟩ := List.pairwise_append.mp h.times
        refine List.pairwise_append.mpr ⟨htimes, List.pairwise_singleton _ _, ?_⟩
        intro time htime now' hnow'
        cases List.mem_singleton.mp hnow'
        exact (hall time htime s.now (List.mem_singleton_self _)).trans hnow }

omit [LinearOrder Address] in
theorem holds_empty (kit : PassableKit Address) {live : NonceKeyData Address → Prop}
    (h : ∀ key, ¬ live key) : Holds kit live {} := by
  constructor <;>
  · intro text
    constructor
    · exact fun hmem => absurd hmem (Finset.notMem_empty text)
    · rintro ⟨key, hlive, -⟩
      exact absurd hlive (h key)

omit [LinearOrder Address] in
theorem HandlerInv.init (kit : PassableKit Address) (now : ℕ) :
    HandlerInv kit ({ now } : HandlerState D Address Op) where
  times := List.pairwise_pair.mpr (Nat.zero_le now)
  reuse := .nil
  inTime := nofun
  waiting := List.Subperm.refl _
  decided before p after hsplit := by
    have hnil := (List.append_eq_nil_iff.mp hsplit.symm).2
    cases hnil
  stores := by
    apply holds_empty
    rintro key ⟨⟨p, hp, -⟩, -⟩
    exact List.not_mem_nil hp

omit [LinearOrder Address] in
theorem HandlerInv.noReplay (h : HandlerInv kit s) : NoReplay kit s where
  reuse := h.reuse
  once := by
    have hhandled : List.Subperm s.handled ((acceptedOf s.processed).map Processed.details) :=
      (List.sublist_append_left _ _).subperm.trans h.waiting
    refine ⟨?_, hhandled⟩
    have hkeys : ((acceptedOf s.processed).map fun p => p.details.key).Nodup := by
      rw [List.Nodup, List.pairwise_map]
      apply h.reuse.imp_of_mem
      intro p q hp hq hreuse hsame
      -- The first message's deadline has passed, so that the second one's has, too.
      have hexpired := hreuse ⟨congrArg _ hsame, congrArg _ hsame⟩
      have hinTime := h.inTime q hq
      rw [hsame] at hexpired
      omega
    obtain ⟨handled, hperm, hsublist⟩ := hhandled
    have hmap := hsublist.map MessageDetails.key
    rw [List.map_map] at hmap
    exact (hperm.map MessageDetails.key).nodup_iff.mp (hmap.nodup hkeys)
  decided := h.decided
  stores := h.stores

/-- Signed messages cannot be replayed, whatever the order of the steps. -/
theorem handleMessage_no_replay (hkit : kit.CompactOrdered)
    (h : (messageHandler utils kit).Reachable TransitionSystem.anyStep s) : NoReplay kit s := by
  apply HandlerInv.noReplay
  apply h.invariant
  · rintro s ⟨now, rfl⟩
    exact .init kit now
  · intro s event t hs _ hstep
    exact hs.step hkit hstep

end Safety

section Runs

open DelimitedText OrderedText

/-- Strings of letters and digits, which are encoded as they are. -/
abbrev PlainAddress := { s : Text // s.all Char.isAlphanum = true }

def encodeElement (element : KeyElement PlainAddress) : Text :=
  match ofLex element with
  | .inl n => 'p' :: numeral n
  | .inr address => 's' :: address.val

def decodeElement : Text → Option (KeyElement PlainAddress)
  | 'p' :: text => (cutAt ':' text).map fun cut => toLex (.inl (Nat.ofDigitChars 10 cut.2 0))
  | 's' :: text =>
    if h : text.all Char.isAlphanum = true then some (toLex (.inr ⟨text, h⟩)) else none
  | _ => none

def decodeElements : ℕ → Text → Option (List (KeyElement PlainAddress))
  | 0, _ => some []
  | n + 1, text =>
    if text = [] then some []
    else do
      let (field, rest) ← cutAt ' ' text
      return (← decodeElement field) :: (← decodeElements n rest)

def compactOrdered : PassableKit PlainAddress where
  encodePassable elements := '~' :: '^' :: terminated ' ' (elements.map encodeElement)
  decodePassable
    | '~' :: '^' :: text => decodeElements text.length text
    | _ => none

theorem decodeElement_encode (element : KeyElement PlainAddress) :
    decodeElement (encodeElement element) = some element := by
  match element with
  | .inl n =>
    have hcolon : ':' ∉ List.replicate ((Nat.toDigits 10 (Nat.toDigits 10 n).length).length - 1)
        '~' ++ Nat.toDigits 10 (Nat.toDigits 10 n).length := by
      intro h
      rcases List.mem_append.mp h with h | h
      · cases (List.mem_replicate.mp h).2
      · cases Nat.isDigit_of_mem_toDigits (by decide) (by decide) h
    change (cutAt ':' (numeral n)).map _ = _
    unfold numeral
    dsimp only
    rw [← List.append_assoc, cutAt_append hcolon, Option.map_some,
      Nat.ofDigitChars_ten_toDigits]
    rfl
  | .inr address => exact dif_pos address.property

theorem lt_of_mem_encodeElement (element : KeyElement PlainAddress) :
    ∀ c ∈ encodeElement element, ' ' < c := by
  intro c hc
  match element with
  | .inl n =>
    rcases List.mem_cons.mp hc with rfl | hc
    · decide
    · exact lt_of_mem_numeral hc
  | .inr address =>
    rcases List.mem_cons.mp hc with rfl | hc
    · decide
    · have halnum := List.all_eq_true.mp address.property c hc
      rcases (Bool.or_eq_true _ _).mp halnum with halpha | hdigit
      · rcases (Bool.or_eq_true _ _).mp halpha with hupper | hlower
        · have hlow : 'A' ≤ c := (of_decide_eq_true hupper).1
          exact lt_of_lt_of_le (by decide) hlow
        · have hlow : 'a' ≤ c := of_decide_eq_true ((Bool.and_eq_true _ _).mp hlower).1
          exact lt_of_lt_of_le (by decide) hlow
      · exact (isDigit_bounds hdigit).1

theorem encodeElement_strictMono : StrictMono encodeElement := by
  intro x y h
  match x, y, h with
  | .inl m, .inl n, h => exact .cons (numeral_strictMono (Sum.Lex.inl_lt_inl_iff.mp h))
  | .inl m, .inr b, h => exact .rel (by decide)
  | .inr a, .inl n, h => exact absurd h Sum.Lex.not_inr_lt_inl
  | .inr a, .inr b, h => exact .cons (Sum.Lex.inr_lt_inr_iff.mp h)

theorem decodeElements_terminated {n : ℕ} {elements : List (KeyElement PlainAddress)}
    (h : elements.length ≤ n) :
    decodeElements n (terminated ' ' (elements.map encodeElement)) = some elements := by
  induction elements generalizing n with
  | nil => cases n <;> rfl
  | cons element elements ih =>
    obtain ⟨n, rfl⟩ := Nat.exists_eq_add_of_le' (Nat.one_le_of_lt h)
    have hfree : ' ' ∉ encodeElement element := fun hmem =>
      lt_irrefl _ (lt_of_mem_encodeElement element _ hmem)
    have hne : encodeElement element ++ ' ' :: terminated ' ' (elements.map encodeElement) ≠ [] :=
      List.append_ne_nil_of_right_ne_nil _ (List.cons_ne_nil _ _)
    rw [List.map_cons, terminated_cons, decodeElements, if_neg hne, cutAt_append hfree]
    change (do return (← decodeElement (encodeElement element)) :: (← decodeElements n _)) = _
    rw [decodeElement_encode, ih (Nat.le_of_succ_le_succ h)]
    rfl

theorem length_le_terminated (elements : List (KeyElement PlainAddress)) :
    elements.length ≤ (terminated ' ' (elements.map encodeElement)).length := by
  induction elements with
  | nil => exact Nat.zero_le _
  | cons element elements ih =>
    rw [List.map_cons, terminated_cons, List.length_append, List.length_cons, List.length_cons]
    omega

theorem compactOrdered_lawful : compactOrdered.CompactOrdered where
  ordered _ _ h := .cons (.cons
    (terminated_strictMono encodeElement_strictMono lt_of_mem_encodeElement h))
  decode_encode elements := decodeElements_terminated (length_le_terminated elements)
  separated := ⟨' ', encodeElement, fun element hmem =>
    lt_irrefl _ (lt_of_mem_encodeElement element _ hmem), fun _ => rfl⟩

/-- Signatures are not looked at; the owner stands in the data. -/
def plainUtils : MessageUtils (NonceKeyData PlainAddress) PlainAddress Unit where
  hashTypedData _ := "0x"
  getAddress _ := none
  recoverAddress _ data := some data.walletOwner
  extractOperationDetails data _ := some (data.nonce, data.deadline, ())

def addressA : PlainAddress := ⟨['0', 'x', 'A'], by decide⟩

def addressB : PlainAddress := ⟨['0', 'x', 'B'], by decide⟩

def plainMessage (walletOwner : PlainAddress) (nonce deadline : ℕ) :
    EIP712Data (NonceKeyData PlainAddress) :=
  { verifiedSigner := none, hash := none, signedData := { walletOwner, nonce, deadline } }

/-- A message is sent twice, a nonce is used by two owners, and used again when it has expired. -/
def replayEvents : List (HandlerEvent (NonceKeyData PlainAddress)) :=
  [.handleMessage (plainMessage addressA 1 150), .handleMessage (plainMessage addressA 1 150),
    .handleMessage (plainMessage addressB 1 1000), .recovered 1, .recovered 1, .recovered 0,
    .timeAnswered, .clock 120, .timeAnswered, .timeReceived, .timeAnswered, .timeReceived,
    .timeReceived, .nodeMade 1 true, .nodeMade 0 true, .clock 151,
    .handleMessage (plainMessage addressA 1 170), .recovered 0, .timeAnswered, .timeReceived,
    .nodeMade 0 true]

theorem handleMessage_no_replay_runs :
    ∃ s, (messageHandler plainUtils compactOrdered).runWhile TransitionSystem.anyStep
        { now := 100 } replayEvents = some s ∧
      s.handled.map MessageDetails.key =
        [⟨addressB, 1, 1000⟩, ⟨addressA, 1, 150⟩, ⟨addressA, 1, 170⟩] ∧
      NoReplay compactOrdered s := by
  have hrun : ((messageHandler plainUtils compactOrdered).runWhile TransitionSystem.anyStep
      { now := 100 } replayEvents).map (fun s => s.handled.map MessageDetails.key) =
        some [⟨addressB, 1, 1000⟩, ⟨addressA, 1, 150⟩, ⟨addressA, 1, 170⟩] := by
    decide +kernel
  obtain ⟨s, hs, hhandled⟩ := Option.map_eq_some_iff.mp hrun
  refine ⟨s, hs, hhandled, ?_⟩
  exact handleMessage_no_replay compactOrdered_lawful
    (TransitionSystem.Reachable.of_runWhile (.init ⟨100, rfl⟩) hs)

end Runs

end AgoricSdk.Portfolio
