import AgoricSdk.Lib.DelimitedText
import AgoricSdk.Lib.OrderedMap
import AgoricSdk.Lib.Program
import Mathlib.Data.Char
import Mathlib.Data.List.Lex
import Mathlib.Data.Sum.Order
import Mathlib.Order.Lex

/-!
The nonces of signed messages that have been accepted and have not expired. They are kept in
two sets of strings: one by deadline, from which expired nonces are removed in order, and one
by owner, in which a nonce in use is found by the start of its key.
-/

namespace AgoricSdk.Portfolio

open StateProgram

abbrev Text := List Char

/-- The elements of keys, in their order: big integers come before strings. -/
abbrev KeyElement (Address : Type) := ℕ ⊕ₗ Address

/-- The encoder of arrays of key elements and its inverse. -/
structure PassableKit (Address : Type) where
  encodePassable : List (KeyElement Address) → Text
  decodePassable : Text → Option (List (KeyElement Address))

/-- What the `compactOrdered` format promises: it is ordered, and the encoding of an array is
that of its elements in turn, each followed by a character that no element's contains. -/
structure PassableKit.CompactOrdered {Address : Type} [LinearOrder Address]
    (kit : PassableKit Address) : Prop where
  ordered : StrictMono kit.encodePassable
  decode_encode (elements : List (KeyElement Address)) :
    kit.decodePassable (kit.encodePassable elements) = some elements
  separated : ∃ (separator : Char) (encodeElement : KeyElement Address → Text),
    (∀ element, separator ∉ encodeElement element) ∧
      ∀ elements, kit.encodePassable elements =
        kit.encodePassable [] ++ DelimitedText.terminated separator (elements.map encodeElement)

structure NonceKeyData (Address : Type) where
  walletOwner : Address
  nonce : ℕ
  deadline : ℕ
  deriving DecidableEq

structure NonceStores where
  noncesByDeadline : Finset Text := ∅
  noncesByOwner : Finset Text := ∅
  deriving DecidableEq

inductive NonceFault where
  | undecodable
  | notFound
  | alreadyUsed
  deriving DecidableEq

section Keys

variable {Address : Type} (kit : PassableKit Address)

def encodeKeyByDeadline (key : NonceKeyData Address) : Text :=
  kit.encodePassable [toLex (.inl key.deadline), toLex (.inr key.walletOwner), toLex (.inl key.nonce)]

def decodeKeyByDeadline (encoded : Text) : Option (NonceKeyData Address) :=
  match kit.decodePassable encoded with
  | some [deadline, walletOwner, nonce] =>
    match ofLex deadline, ofLex walletOwner, ofLex nonce with
    | .inl deadline, .inr walletOwner, .inl nonce => some { walletOwner, nonce, deadline }
    | _, _, _ => none
  | _ => none

def encodeKeyByOwner (key : NonceKeyData Address) : Text :=
  kit.encodePassable [toLex (.inr key.walletOwner), toLex (.inl key.nonce), toLex (.inl key.deadline)]

def getByOwnerKeyPrefix (key : NonceKeyData Address) : Text :=
  kit.encodePassable [toLex (.inr key.walletOwner), toLex (.inl key.nonce)]

end Keys

section Stores

def deleteByDeadline (key : Text) : EStateM NonceFault NonceStores Unit := do
  let s ← get
  if key ∈ s.noncesByDeadline then
    set { s with noncesByDeadline := s.noncesByDeadline.erase key }
  else throw .notFound

def deleteByOwner (key : Text) : EStateM NonceFault NonceStores Unit := do
  let s ← get
  if key ∈ s.noncesByOwner then set { s with noncesByOwner := s.noncesByOwner.erase key }
  else throw .notFound

/-- The first of the keys from `start` on. -/
def firstFrom (keys : Finset Text) (start : Text) : Option Text := (keys.filter (start ≤ ·)).min

end Stores

section Manager

variable {Address : Type} (kit : PassableKit Address)

/-- The first candidate decides: another one is looked at only if it begins differently. -/
def insertNonce (key : NonceKeyData Address) : EStateM NonceFault NonceStores Unit := do
  let candidatePrefix := getByOwnerKeyPrefix kit key
  match firstFrom (← get).noncesByOwner candidatePrefix with
  | some encodedCandidateKey =>
    if candidatePrefix.isPrefixOf encodedCandidateKey then throw .alreadyUsed
  | none => pure ()
  modify fun s =>
    { s with noncesByDeadline := insert (encodeKeyByDeadline kit key) s.noncesByDeadline }
  modify fun s => { s with noncesByOwner := insert (encodeKeyByOwner kit key) s.noncesByOwner }

/-- Go on with the given key, and from each key to the next one after it. -/
def removeExpiredFrom (currentTime : ℕ) : ℕ → Option Text → EStateM NonceFault NonceStores Unit
  | _, none => pure ()
  | 0, some _ => pure ()
  | n + 1, some encodedKey =>
    match decodeKeyByDeadline kit encodedKey with
    | none => throw .undecodable
    | some key =>
      if currentTime ≤ key.deadline then pure ()
      else do
        deleteByDeadline (encodeKeyByDeadline kit key)
        deleteByOwner (encodeKeyByOwner kit key)
        removeExpiredFrom currentTime n (OrderedMap.next (← get).noncesByDeadline encodedKey)

/-- Every key is visited once at most, so that there are visits enough for all. -/
def removeExpiredNonces (currentTime : ℕ) : EStateM NonceFault NonceStores Unit := do
  let s ← get
  removeExpiredFrom kit currentTime s.noncesByDeadline.card s.noncesByDeadline.min

end Manager

section Ordering

theorem begins_of_between {α : Type} [LinearOrder α] {a b c x y z : α}
    (hlow : [a, b] ≤ [x, y, z]) (hhigh : [x, y, z] ≤ [a, b, c]) : x = a ∧ y = b := by
  have hhead : ∀ {u v : α} {us vs : List α}, u :: us ≤ v :: vs → u ≤ v := by
    intro u v us vs hle
    rcases le_iff_lt_or_eq.mp hle with hlt | heq
    · exact List.head_le_of_lt hlt
    · exact (List.cons.inj heq).1.le
  have htail : ∀ {u : α} {us vs : List α}, u :: us ≤ u :: vs → us ≤ vs := by
    intro u us vs hle
    apply le_of_not_gt
    intro hlt
    exact not_le_of_gt (List.Lex.cons hlt : u :: vs < u :: us) hle
  have hx : x = a := le_antisymm (hhead hhigh) (hhead hlow)
  subst hx
  exact ⟨rfl, le_antisymm (hhead (htail hhigh)) (hhead (htail hlow))⟩

end Ordering

section Specs

variable {Address : Type} [LinearOrder Address] {kit : PassableKit Address}
variable {key key' : NonceKeyData Address}

/-- The two have the same owner and nonce. -/
def NonceKeyData.Conflicts (key key' : NonceKeyData Address) : Prop :=
  key.walletOwner = key'.walletOwner ∧ key.nonce = key'.nonce

instance (key key' : NonceKeyData Address) : Decidable (key.Conflicts key') :=
  inferInstanceAs (Decidable (_ ∧ _))

theorem decodeKeyByDeadline_encode (hkit : kit.CompactOrdered) (key : NonceKeyData Address) :
    decodeKeyByDeadline kit (encodeKeyByDeadline kit key) = some key := by
  unfold decodeKeyByDeadline encodeKeyByDeadline
  rw [hkit.decode_encode]
  rfl

theorem encodeKeyByDeadline_injective (hkit : kit.CompactOrdered)
    (h : encodeKeyByDeadline kit key = encodeKeyByDeadline kit key') : key = key' := by
  have hdecode := congrArg (decodeKeyByDeadline kit) h
  rw [decodeKeyByDeadline_encode hkit, decodeKeyByDeadline_encode hkit] at hdecode
  exact Option.some.inj hdecode

theorem encodeKeyByOwner_injective (hkit : kit.CompactOrdered)
    (h : encodeKeyByOwner kit key = encodeKeyByOwner kit key') : key = key' := by
  have hlist := hkit.ordered.injective h
  cases key
  cases key'
  simp_all

theorem deadline_le (hkit : kit.CompactOrdered)
    (h : encodeKeyByDeadline kit key ≤ encodeKeyByDeadline kit key') :
    key.deadline ≤ key'.deadline := by
  have hlist := hkit.ordered.le_iff_le.mp h
  rcases le_iff_lt_or_eq.mp hlist with hlt | heq
  · exact Sum.Lex.inl_le_inl_iff.mp (List.head_le_of_lt hlt)
  · exact Sum.Lex.inl_le_inl_iff.mp (List.cons.inj heq).1.le

theorem prefix_iff (hkit : kit.CompactOrdered) :
    (getByOwnerKeyPrefix kit key).isPrefixOf (encodeKeyByOwner kit key') = true ↔
      key.Conflicts key' := by
  obtain ⟨separator, encodeElement, hfree, hencode⟩ := hkit.separated
  have hinj : ∀ {x y}, encodeElement x = encodeElement y → x = y := by
    intro x y hxy
    have hsame : kit.encodePassable [x] = kit.encodePassable [y] := by
      rw [hencode [x], hencode [y], List.map_singleton, List.map_singleton, hxy]
    exact (List.cons.inj (hkit.ordered.injective hsame)).1
  have hmap : ∀ (elements : List (KeyElement Address)), ∀ field ∈ elements.map encodeElement,
      separator ∉ field := by
    intro elements field hfield
    obtain ⟨element, -, rfl⟩ := List.mem_map.mp hfield
    exact hfree element
  unfold getByOwnerKeyPrefix encodeKeyByOwner NonceKeyData.Conflicts
  rw [List.isPrefixOf_iff_prefix, hencode [_, _], hencode [_, _, _], List.prefix_append_right_inj,
    DelimitedText.terminated_isPrefix (hmap _) (hmap _)]
  simp only [List.map_cons, List.map_nil, List.cons_prefix_cons, List.nil_prefix, and_true]
  constructor
  · rintro ⟨howner, hnonce⟩
    exact ⟨Sum.inr.inj (hinj howner), Sum.inl.inj (hinj hnonce)⟩
  · rintro ⟨howner, hnonce⟩
    rw [howner, hnonce]
    exact ⟨rfl, rfl⟩

/-- The two stores hold the same keys. -/
structure Holds (kit : PassableKit Address) (live : NonceKeyData Address → Prop)
    (s : NonceStores) : Prop where
  byDeadline (text : Text) :
    text ∈ s.noncesByDeadline ↔ ∃ key, live key ∧ encodeKeyByDeadline kit key = text
  byOwner (text : Text) :
    text ∈ s.noncesByOwner ↔ ∃ key, live key ∧ encodeKeyByOwner kit key = text

variable {live live' : NonceKeyData Address → Prop} {s : NonceStores}

omit [LinearOrder Address] in
theorem Holds.congr (h : Holds kit live s) (hlive : ∀ key, live key ↔ live' key) :
    Holds kit live' s := by
  rw [← show live = live' from funext fun key => propext (hlive key)]
  exact h

theorem firstFrom_spec (keys : Finset Text) (start : Text) :
    match firstFrom keys start with
    | none => ∀ text ∈ keys, ¬ start ≤ text
    | some first => first ∈ keys ∧ start ≤ first ∧ ∀ text ∈ keys, start ≤ text → first ≤ text := by
  have hmem : ∀ text, text ∈ keys.filter (start ≤ ·) ↔ text ∈ keys ∧ start ≤ text :=
    fun text => Finset.mem_filter
  cases hfirst : firstFrom keys start with
  | none =>
    have hempty : keys.filter (start ≤ ·) = ∅ := Finset.min_eq_top.mp hfirst
    intro text htext hle
    have hin := (hmem text).mpr ⟨htext, hle⟩
    rw [hempty] at hin
    exact Finset.notMem_empty text hin
  | some first =>
    obtain ⟨hin, hle⟩ := (hmem first).mp (Finset.mem_of_min hfirst)
    exact ⟨hin, hle, fun text htext hle' =>
      Finset.min_le_of_eq ((hmem text).mpr ⟨htext, hle'⟩) hfirst⟩

theorem insertNonce_used (hkit : kit.CompactOrdered) (h : Holds kit live s) (hlive : live key')
    (hconflict : key.Conflicts key') : insertNonce kit key s = .error .alreadyUsed s := by
  have hmem : encodeKeyByOwner kit key' ∈ s.noncesByOwner := (h.byOwner _).mpr ⟨key', hlive, rfl⟩
  have hbelow : getByOwnerKeyPrefix kit key ≤ encodeKeyByOwner kit key' := by
    unfold getByOwnerKeyPrefix encodeKeyByOwner
    rw [hconflict.1, hconflict.2]
    exact (hkit.ordered (.cons (.cons .nil))).le
  have hfirst := firstFrom_spec s.noncesByOwner (getByOwnerKeyPrefix kit key)
  cases hcandidate : firstFrom s.noncesByOwner (getByOwnerKeyPrefix kit key) with
  | none =>
    rw [hcandidate] at hfirst
    exact absurd hbelow (hfirst _ hmem)
  | some candidate =>
    rw [hcandidate] at hfirst
    obtain ⟨hin, hlow, hleast⟩ := hfirst
    obtain ⟨found, -, rfl⟩ := (h.byOwner candidate).mp hin
    have hhigh := hleast _ hmem hbelow
    -- The first candidate is not after a key that begins with the owner and nonce.
    have hsame : key.Conflicts found := by
      unfold getByOwnerKeyPrefix encodeKeyByOwner at hlow
      unfold encodeKeyByOwner at hhigh
      rw [← hconflict.1, ← hconflict.2] at hhigh
      obtain ⟨howner, hnonce⟩ :=
        begins_of_between (hkit.ordered.le_iff_le.mp hlow) (hkit.ordered.le_iff_le.mp hhigh)
      exact ⟨(Sum.inr.inj howner).symm, (Sum.inl.inj hnonce).symm⟩
    change (match firstFrom s.noncesByOwner (getByOwnerKeyPrefix kit key) with
      | some encodedCandidateKey => _
      | none => _ : EStateM NonceFault NonceStores Unit) s = _
    rw [hcandidate]
    dsimp only
    rw [if_pos ((prefix_iff hkit).mpr hsame)]
    rfl

theorem insertNonce_fresh (hkit : kit.CompactOrdered) (h : Holds kit live s)
    (hfresh : ∀ key', live key' → ¬ key.Conflicts key') :
    ∃ t, insertNonce kit key s = .ok () t ∧ Holds kit (fun key' => key' = key ∨ live key') t := by
  let t : NonceStores :=
    { noncesByDeadline := insert (encodeKeyByDeadline kit key) s.noncesByDeadline
      noncesByOwner := insert (encodeKeyByOwner kit key) s.noncesByOwner }
  have hadded : ∀ (encode : NonceKeyData Address → Text) (keys : Finset Text),
      (∀ text, text ∈ keys ↔ ∃ key, live key ∧ encode key = text) → ∀ text,
        text ∈ insert (encode key) keys ↔ ∃ key', (key' = key ∨ live key') ∧ encode key' = text := by
    intro encode keys hkeys text
    rw [Finset.mem_insert, hkeys]
    constructor
    · rintro (rfl | ⟨key', hlive, rfl⟩)
      · exact ⟨key, .inl rfl, rfl⟩
      · exact ⟨key', .inr hlive, rfl⟩
    · rintro ⟨key', rfl | hlive, rfl⟩
      · exact .inl rfl
      · exact .inr ⟨key', hlive, rfl⟩
  refine ⟨t, ?_, ⟨hadded _ _ h.byDeadline, hadded _ _ h.byOwner⟩⟩
  have hfirst := firstFrom_spec s.noncesByOwner (getByOwnerKeyPrefix kit key)
  unfold insertNonce
  dsimp only
  change (match firstFrom s.noncesByOwner (getByOwnerKeyPrefix kit key) with
    | some encodedCandidateKey => _
    | none => _ : EStateM NonceFault NonceStores Unit) s = _
  cases hcandidate : firstFrom s.noncesByOwner (getByOwnerKeyPrefix kit key) with
  | none => rfl
  | some candidate =>
    rw [hcandidate] at hfirst
    obtain ⟨found, hlive, rfl⟩ := (h.byOwner candidate).mp hfirst.1
    dsimp only
    rw [if_neg fun hprefix => hfresh found hlive ((prefix_iff hkit).mp hprefix)]
    rfl

theorem deleteByDeadline_run {text : Text} (h : text ∈ s.noncesByDeadline) :
    deleteByDeadline text s =
      .ok () { s with noncesByDeadline := s.noncesByDeadline.erase text } := by
  change (if text ∈ s.noncesByDeadline then _ else _ : EStateM NonceFault NonceStores Unit) s = _
  rw [if_pos h]
  rfl

theorem deleteByOwner_run {text : Text} (h : text ∈ s.noncesByOwner) :
    deleteByOwner text s = .ok () { s with noncesByOwner := s.noncesByOwner.erase text } := by
  change (if text ∈ s.noncesByOwner then _ else _ : EStateM NonceFault NonceStores Unit) s = _
  rw [if_pos h]
  rfl

theorem removeExpiredFrom_spec (hkit : kit.CompactOrdered) (currentTime : ℕ) {n : ℕ}
    (h : Holds kit live s) (hcard : s.noncesByDeadline.card ≤ n) :
    ∃ t, removeExpiredFrom kit currentTime n s.noncesByDeadline.min s = .ok () t ∧
      Holds kit (fun key => live key ∧ currentTime ≤ key.deadline) t := by
  induction n generalizing s live with
  | zero =>
    have hempty : s.noncesByDeadline = ∅ := Finset.card_eq_zero.mp (Nat.le_zero.mp hcard)
    refine ⟨s, ?_, h.congr fun key => ⟨fun hlive => ?_, And.left⟩⟩
    · rw [hempty, Finset.min_empty]
      rfl
    · have hmem := (h.byDeadline _).mpr ⟨key, hlive, rfl⟩
      rw [hempty] at hmem
      exact absurd hmem (Finset.notMem_empty _)
  | succ n ih =>
    cases hmin : s.noncesByDeadline.min with
    | top =>
      have hempty := Finset.min_eq_top.mp hmin
      refine ⟨s, rfl, h.congr fun key => ⟨fun hlive => ?_, And.left⟩⟩
      have hmem := (h.byDeadline _).mpr ⟨key, hlive, rfl⟩
      rw [hempty] at hmem
      exact absurd hmem (Finset.notMem_empty _)
    | coe text =>
      have hmem := Finset.mem_of_min hmin
      obtain ⟨key, hlive, rfl⟩ := (h.byDeadline text).mp hmem
      have hleast : ∀ {key'}, live key' →
          encodeKeyByDeadline kit key ≤ encodeKeyByDeadline kit key' := fun hlive' =>
        Finset.min_le_of_eq ((h.byDeadline _).mpr ⟨_, hlive', rfl⟩) hmin
      change ∃ t, (match decodeKeyByDeadline kit (encodeKeyByDeadline kit key) with
        | none => _
        | some key => _ : EStateM NonceFault NonceStores Unit) s = _ ∧ _
      rw [decodeKeyByDeadline_encode hkit]
      dsimp only
      by_cases hunexpired : currentTime ≤ key.deadline
      · rw [if_pos hunexpired]
        refine ⟨s, rfl, h.congr fun key' => ⟨fun hlive' => ⟨hlive', ?_⟩, And.left⟩⟩
        exact hunexpired.trans (deadline_le hkit (hleast hlive'))
      · rw [if_neg hunexpired]
        let t : NonceStores :=
          { noncesByDeadline := s.noncesByDeadline.erase (encodeKeyByDeadline kit key)
            noncesByOwner := s.noncesByOwner.erase (encodeKeyByOwner kit key) }
        have herased : ∀ (encode : NonceKeyData Address → Text) (keys : Finset Text),
            (∀ {a b}, encode a = encode b → a = b) →
            (∀ text, text ∈ keys ↔ ∃ key, live key ∧ encode key = text) → ∀ text,
              text ∈ keys.erase (encode key) ↔
                ∃ key', (live key' ∧ key' ≠ key) ∧ encode key' = text := by
          intro encode keys hinj hkeys text
          rw [Finset.mem_erase, hkeys]
          constructor
          · rintro ⟨hne, key', hlive', rfl⟩
            exact ⟨key', ⟨hlive', fun heq => hne (congrArg encode heq)⟩, rfl⟩
          · rintro ⟨key', ⟨hlive', hne⟩, rfl⟩
            exact ⟨fun heq => hne (hinj heq), key', hlive', rfl⟩
        have ht : Holds kit (fun key' => live key' ∧ key' ≠ key) t :=
          ⟨herased _ _ (encodeKeyByDeadline_injective hkit) h.byDeadline,
            herased _ _ (encodeKeyByOwner_injective hkit) h.byOwner⟩
        have hfewer : t.noncesByDeadline.card ≤ n := by
          rw [Finset.card_erase_of_mem hmem]
          omega
        have hnext : OrderedMap.next t.noncesByDeadline (encodeKeyByDeadline kit key) =
            t.noncesByDeadline.min := by
          apply OrderedMap.next_eq_min
          intro text htext
          obtain ⟨hne, hin⟩ := Finset.mem_erase.mp htext
          exact lt_of_le_of_ne (Finset.min_le_of_eq hin hmin) hne.symm
        obtain ⟨u, hrun, hu⟩ := ih ht hfewer
        refine ⟨u, ?_, hu.congr fun key' => ?_⟩
        · have hmemOwner : encodeKeyByOwner kit key ∈ s.noncesByOwner :=
            (h.byOwner _).mpr ⟨key, hlive, rfl⟩
          have howner := deleteByOwner_run (s := { s with
            noncesByDeadline := s.noncesByDeadline.erase (encodeKeyByDeadline kit key) }) hmemOwner
          change EStateM.bind (deleteByDeadline _) _ s = _
          unfold EStateM.bind
          rw [deleteByDeadline_run hmem]
          dsimp only
          change EStateM.bind (deleteByOwner _) _ _ = _
          unfold EStateM.bind
          rw [howner]
          change removeExpiredFrom kit currentTime n
            (OrderedMap.next t.noncesByDeadline (encodeKeyByDeadline kit key)) t = _
          rw [hnext]
          exact hrun
        · constructor
          · rintro ⟨⟨hlive', -⟩, htime⟩
            exact ⟨hlive', htime⟩
          · rintro ⟨hlive', htime⟩
            exact ⟨⟨hlive', fun heq => hunexpired (heq ▸ htime)⟩, htime⟩

theorem removeExpiredNonces_spec (hkit : kit.CompactOrdered) (currentTime : ℕ)
    (h : Holds kit live s) :
    ∃ t, removeExpiredNonces kit currentTime s = .ok () t ∧
      Holds kit (fun key => live key ∧ currentTime ≤ key.deadline) t :=
  removeExpiredFrom_spec hkit currentTime h le_rfl

end Specs

end AgoricSdk.Portfolio
