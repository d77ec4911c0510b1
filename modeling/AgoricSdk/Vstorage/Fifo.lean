import AgoricSdk.Vstorage.Queue

/-!
The two sides of a queue in vstorage keep one FIFO. The tree of the store holds
the indices and the items at their indices. A push adds one item, and an
iteration hands out the first items of the queue: it takes them off when it is
closed or reaches the end, and leaves the queue as it was when it is undone.
-/

namespace AgoricSdk.Vstorage

open StateProgram PathTree

section Numerals

theorem decimal_ne_nil (n : Nat) : decimal n ≠ [] := Nat.toDigits_ne_nil

theorem isWhitespace_of_isDigit {c : Char} (h : c.isDigit = true) : c.isWhitespace = false := by
  by_contra hw
  have hws : c.isWhitespace = true := by simpa using hw
  simp only [Char.isWhitespace, Bool.or_eq_true, decide_eq_true_eq] at hws
  obtain (((rfl | rfl) | rfl) | rfl) := hws <;> exact absurd h (by decide)

theorem dropWhile_isWhitespace {text : Bytes} (h : ∀ c ∈ text, c.isDigit = true) :
    text.dropWhile Char.isWhitespace = text := by
  cases text with
  | nil => rfl
  | cons c text => simp [isWhitespace_of_isDigit (h c (List.mem_cons_self ..))]

theorem digitValue_ten {c : Char} (h : c.isDigit = true) :
    digitValue 10 c = some (c.toNat - '0'.toNat) := by
  have hle : c.toNat ≤ '9'.toNat := by
    simp only [Char.isDigit, Bool.and_eq_true, decide_eq_true_eq] at h
    exact h.2
  have h9 : '9'.toNat = 57 := rfl
  have h0 : '0'.toNat = 48 := rfl
  have hlt : c.toNat - '0'.toNat < 10 := by omega
  simp only [digitValue, h, if_true, if_pos hlt]

theorem foldlM_digitValue {text : Bytes} (h : ∀ c ∈ text, c.isDigit = true) (n : Nat) :
    text.foldlM (fun n c => (digitValue 10 c).map fun d => 10 * n + d) n =
      some (Nat.ofDigitChars 10 text n) := by
  induction text generalizing n with
  | nil => simp [Nat.ofDigitChars_nil]
  | cons c text ih =>
    rw [List.foldlM_cons, digitValue_ten (h c (List.mem_cons_self ..)), Nat.ofDigitChars_cons]
    exact ih (fun d hd => h d (List.mem_cons_of_mem _ hd)) _

theorem bigInt_decimal (n : Nat) : bigInt (decimal n) = some (n : Int) := by
  have hdigit : ∀ c ∈ decimal n, c.isDigit = true := fun c hc => decimal_isDigit hc
  have htrim : (((decimal n).dropWhile Char.isWhitespace).reverse.dropWhile
      Char.isWhitespace).reverse = decimal n := by
    rw [dropWhile_isWhitespace hdigit, dropWhile_isWhitespace fun c hc =>
      hdigit c (List.mem_reverse.mp hc), List.reverse_reverse]
  have hval : ofDigits 10 (decimal n) = some n := by
    rw [ofDigits, if_neg (decimal_ne_nil n), foldlM_digitValue hdigit, decimal,
      Nat.ofDigitChars_ten_toDigits]
  have hbad : ∀ c ∈ decimal n, c ∉ ['x', 'X', 'o', 'O', 'b', 'B', '+', '-'] := fun c hc hm => by
    have := hdigit c hc
    fin_cases hm <;> exact absurd this (by decide)
  have hne := decimal_ne_nil n
  rw [bigInt, htrim]
  -- No mark of a base and no sign is a digit, so the last case applies.
  split
  case h_1 heq => exact absurd heq hne
  case h_10 => rw [hval]; rfl
  all_goals
    rename_i heq
    simp [heq] at hbad

end Numerals

section Paths

theorem pathSegmentChar_of_isDigit {c : Char} (h : c.isDigit = true) : pathSegmentChar c = true := by
  simp [pathSegmentChar, Char.isAlphanum, h]

def headSegment : Segment := ⟨"head".toList, by decide, List.all_eq_true.mp (by decide)⟩

def tailSegment : Segment := ⟨"tail".toList, by decide, List.all_eq_true.mp (by decide)⟩

/-- The segment of an item's index. -/
def indexSegment (n : Nat) : Segment where
  val := decimal n
  nonempty := decimal_ne_nil n
  alphabet _ hc := pathSegmentChar_of_isDigit (decimal_isDigit hc)

theorem indexSegment_injective {n m : Nat} (h : indexSegment n = indexSegment m) : n = m :=
  decimal_injective (congrArg Segment.val h)

theorem headSegment_ne_tailSegment : headSegment ≠ tailSegment := by decide

theorem ne_decimal {c : Char} {text : Bytes} (hc : c.isDigit = false) (n : Nat) :
    c :: text ≠ decimal n := by
  intro h
  have := decimal_isDigit (n := n) (c := c) (by rw [← h]; exact List.mem_cons_self ..)
  rw [hc] at this
  cases this

theorem headSegment_ne_indexSegment (n : Nat) : headSegment ≠ indexSegment n := fun h =>
  ne_decimal (by decide) n (congrArg Segment.val h)

theorem tailSegment_ne_indexSegment (n : Nat) : tailSegment ≠ indexSegment n := fun h =>
  ne_decimal (by decide) n (congrArg Segment.val h)

theorem bridgeKey_text {q : Path} (hq : q ≠ []) (c : Segment) :
    bridgeKey q.text c.val = Path.text (q ++ [c]) := by
  have hq' : q ++ [c] ≠ [] := by simp
  have h : pathSeparator :: Path.text (q ++ [c]) =
      pathSeparator :: q.text ++ pathSeparator :: c.val := by
    rw [Path.dot_text hq', Path.dot_text hq, Path.joined_append]
    simp
  exact (List.cons.inj h).2.symm

end Paths

section Children

variable {q : Path} {f : Segment → Option Bytes}

/-- The store has this data at the children of a path and none further below. -/
def StoresChildren (store : Table Bytes Bytes) (q : Path) (f : Segment → Option Bytes) : Prop :=
  ∃ t, StoresTree store t ∧ (∀ c, t (q ++ [c]) = f c) ∧
    ∀ p, q <+: p → (t p).isSome → p = q ∨ ∃ c, p = q ++ [c]

theorem getEntry_child {k : KeeperState} (h : StoresChildren k.store q f) (hq : q ≠ [])
    (c : Segment) : getEntry (bridgeKey q.text c.val) k =
      .ok ⟨bridgeKey q.text c.val, f c⟩ k := by
  obtain ⟨t, ht, hf, -⟩ := h
  rw [bridgeKey_text hq, ht.shows.entry, hf]

theorem setStorage_child {k : KeeperState} (h : StoresChildren k.store q f) (hq : q ≠ [])
    (c : Segment) (value : Option Bytes) :
    ∃ store, setStorage ⟨bridgeKey q.text c.val, value⟩ k = .ok () { k with store } ∧
      StoresChildren store q (Function.update f c value) := by
  obtain ⟨t, ht, hf, hflat⟩ := h
  obtain ⟨store, hset, hs⟩ := setStorage_writes ht (q ++ [c]) value
  rw [← bridgeKey_text hq] at hset
  refine ⟨store, hset, _, hs, fun d => ?_, fun p hp hsome => ?_⟩
  · by_cases hd : d = c
    · subst hd
      rw [write_self, Function.update_self]
    · rw [write_of_ne (by simpa using hd), Function.update_of_ne hd, hf]
  · by_cases hpc : p = q ++ [c]
    · exact .inr ⟨c, hpc⟩
    · rw [write_of_ne hpc] at hsome
      exact hflat p hp hsome

theorem hasEntry_child {k : KeeperState} (h : StoresChildren k.store q f) (hq : q ≠ [])
    (c : Segment) : hasEntry (bridgeKey q.text c.val) k = .ok (f c).isSome k := by
  obtain ⟨t, ht, hf, hflat⟩ := h
  obtain ⟨b, hread, hb⟩ := ht.shows.hasEntry (q ++ [c])
  have hlive : Live t (q ++ [c]) ↔ (f c).isSome := by
    constructor
    · rintro ⟨p, hp, hsome⟩
      obtain rfl | ⟨d, rfl⟩ := hflat p ((List.prefix_append _ _).trans hp) hsome
      · have := hp.length_le
        simp at this
      · have hcd : c = d := by simpa using hp.eq_of_length (by simp)
        subst hcd
        rwa [hf] at hsome
    · intro hsome
      exact live_of_isSome (by rwa [hf])
  rw [bridgeKey_text hq, hread]
  congr 1
  rw [Bool.eq_iff_iff, hb, hlive]

end Children

section Fifo

variable {V ε : Type} {sdk : SDKInt} {json : ItemJSON V} {q : Path} {s : QueueState}
  {f : Segment → Option Bytes} {head : Nat} {items : List V}

/-- The entry of an index is there, or missing and then stands for zero. -/
def IndexAt (f : Segment → Option Bytes) (c : Segment) (n : Nat) : Prop :=
  f c = some (decimal n) ∨ f c = none ∧ n = 0

/-- The data of a queue: its indices, the items at theirs, and nothing else. -/
structure HoldsQueue (json : ItemJSON V) (f : Segment → Option Bytes) (head : Nat)
    (items : List V) : Prop where
  headEntry : IndexAt f headSegment head
  tailEntry : IndexAt f tailSegment (head + items.length)
  item : ∀ n, f (indexSegment n) =
    if head ≤ n then (items[n - head]?).map json.stringify else none
  bound : head + items.length < 2 ^ 256

variable (sdk) in
theorem getIntValue_run {k : KeeperState} (h : StoresChildren k.store q f) (hq : q ≠ [])
    {c : Segment} {n : Nat} (hn : IndexAt f c n) (hlt : n < 2 ^ 256) :
    getIntValue sdk (bridgeKey q.text c.val) k = .ok (.ok n) k := by
  rw [getIntValue, bind_run (getEntry_child h hq c)]
  obtain hp | ⟨hp, rfl⟩ := hn
  · have hparse : sdk.newIntFromString (KVEntry.stringValue ⟨bridgeKey q.text c.val, f c⟩) = some n :=
      hp ▸ sdk.newIntFromString_decimal n hlt
    simp only [hparse]
    rw [hp]
    rfl
  · rw [hp]
    rfl

theorem getQueueLength_run {k : KeeperState} (h : StoresChildren k.store q f) (hq : q ≠ [])
    (hqueue : HoldsQueue json f head items) :
    getQueueLength sdk q.text k = .ok (.ok (items.length : Int)) k := by
  have hhead := getIntValue_run sdk h hq hqueue.headEntry
    (by have := hqueue.bound; omega)
  have htail := getIntValue_run sdk h hq hqueue.tailEntry hqueue.bound
  rw [getQueueLength]
  refine (bind_run hhead).trans ((bind_run htail).trans ?_)
  have hlen : ((head + items.length : Nat) : Int) - (head : Int) = (items.length : Int) := by omega
  exact congrArg (fun n => EStateM.Result.ok (Except.ok n) k) hlen

theorem HoldsQueue.push (h : HoldsQueue json f head items) (item : V)
    (hroom : head + items.length < 2 ^ 256 - 1) :
    HoldsQueue json
      (Function.update
        (Function.update f (indexSegment (head + items.length)) (some (json.stringify item)))
        tailSegment (some (decimal (head + items.length + 1)))) head (items ++ [item]) where
  headEntry := by
    unfold IndexAt
    rw [Function.update_of_ne headSegment_ne_tailSegment,
      Function.update_of_ne (headSegment_ne_indexSegment _)]
    exact h.headEntry
  tailEntry := by
    left
    rw [Function.update_self, List.length_append]
    rfl
  item n := by
    rw [Function.update_of_ne (tailSegment_ne_indexSegment n).symm]
    by_cases hn : n = head + items.length
    · subst hn
      rw [Function.update_self, if_pos (by omega), Nat.add_sub_cancel_left,
        List.getElem?_append_right (Nat.le_refl _)]
      simp
    · rw [Function.update_of_ne fun hi => hn (indexSegment_injective hi), h.item]
      by_cases hle : head ≤ n
      · rw [if_pos hle, if_pos hle]
        by_cases hlt : n - head < items.length
        · rw [List.getElem?_append_left hlt]
        · rw [List.getElem?_eq_none (by omega), List.getElem?_eq_none (by simp; omega)]
      · rw [if_neg hle, if_neg hle]
  bound := by
    rw [List.length_append, List.length_singleton]
    omega

theorem pushQueueItem_run (sdk : SDKInt) {k : KeeperState} (h : StoresChildren k.store q f) (hq : q ≠ [])
    (hqueue : HoldsQueue json f head items) (item : V)
    (hroom : head + items.length < 2 ^ 256 - 1) :
    ∃ store f', pushQueueItem sdk q.text (json.stringify item) k = .ok (.ok ()) { k with store } ∧
      StoresChildren store q f' ∧ HoldsQueue json f' head (items ++ [item]) := by
  have htail := getIntValue_run sdk h hq hqueue.tailEntry hqueue.bound
  obtain ⟨store, hset, hs⟩ := setStorage_child h hq (indexSegment (head + items.length))
    (some (json.stringify item))
  obtain ⟨store', hset', hs'⟩ := setStorage_child (k := { k with store }) hs hq tailSegment
    (some (decimal (head + items.length + 1)))
  refine ⟨store', _, ?_, hs', hqueue.push item hroom⟩
  have hlt : ¬ ((head + items.length : Nat) : Int) ≥ maxSDKInt := by
    rw [maxSDKInt]
    omega
  rw [pushQueueItem]
  refine (bind_run htail).trans ?_
  simp only [if_neg hlt]
  exact (bind_run hset).trans ((bind_run hset').trans rfl)

theorem pushQueueItem_overflow {k : KeeperState} (h : StoresChildren k.store q f) (hq : q ≠ [])
    (hqueue : HoldsQueue json f head items) (item : V)
    (hfull : ¬ head + items.length < 2 ^ 256 - 1) :
    pushQueueItem sdk q.text (json.stringify item) k = .ok (.error (.overflow q.text)) k := by
  have htail := getIntValue_run sdk h hq hqueue.tailEntry hqueue.bound
  have hge : ((head + items.length : Nat) : Int) ≥ maxSDKInt := by
    rw [maxSDKInt]
    omega
  rw [pushQueueItem]
  refine (bind_run htail).trans ?_
  simp only [if_pos hge]
  rfl

theorem bridge_run {α : Type} {m : Keeper α} {a : α} {k : KeeperState}
    (h : m s.keeper = .ok a k) :
    (bridge m : QueueM ε α) s = .ok a { s with keeper := k } := by
  rw [bridge, h]

theorem bufferGet_run (h : StoresChildren s.keeper.store q f) (hq : q ≠ []) {c : Segment}
    (hadd : s.buffer.additions.has c.val = false) (hdel : c.val ∉ s.buffer.deletions) :
    (bufferGet q.text c.val : QueueM ε _) s = .ok (f c) s := by
  rw [bufferGet, bind_run get_run, hadd]
  simp only [Bool.false_eq_true, if_false, if_neg hdel]
  rw [bridgeGet, bind_run (bridge_run (getEntry_child h hq c))]
  rfl

theorem getIndex_run (h : StoresChildren s.keeper.store q f) (hq : q ≠ []) {c : Segment}
    {n : Nat} (hn : IndexAt f c n) (hbuf : s.buffer = {}) :
    (getIndex q.text c.val : QueueM ε _) s = .ok (n : Int) s := by
  rw [getIndex, bind_run (bufferGet_run h hq (by rw [hbuf]; rfl) (by rw [hbuf]; simp))]
  obtain hp | ⟨hp, rfl⟩ := hn
  · rw [hp]
    have hne : (decimal n).isEmpty = false := by
      rw [List.isEmpty_eq_false_iff]
      exact decimal_ne_nil n
    simp only [hne, Bool.false_eq_true, if_false, bigInt_decimal]
    rfl
  · rw [hp]
    rfl

theorem bridgeDeletes_run (h : StoresChildren s.keeper.store q f) (hq : q ≠ [])
    (segments : List Segment) :
    ∃ store, ((segments.map Segment.val).forM fun key => bridgeDelete q.text key :
        QueueM ε PUnit) s = .ok () { s with keeper := { s.keeper with store } } ∧
      StoresChildren store q fun c => if c ∈ segments then none else f c := by
  induction segments generalizing s f with
  | nil => exact ⟨s.keeper.store, rfl, by simpa using h⟩
  | cons c segments ih =>
    obtain ⟨store, hset, hs⟩ := setStorage_child h hq c none
    obtain ⟨store', hrun, hs'⟩ := ih (s := { s with keeper := { s.keeper with store } }) hs
    refine ⟨store', (bind_run (bridge_run hset)).trans hrun, ?_⟩
    have hf : (fun d => if d ∈ segments then none else Function.update f c none d) =
        fun d => if d ∈ c :: segments then none else f d := by
      funext d
      by_cases hd : d = c <;> simp [hd]
    rwa [hf] at hs'

theorem commit_deletions_run (segments : List Segment) (h : StoresChildren s.keeper.store q f)
    (hq : q ≠ [])
    (hbuf : s.buffer = { additions := ∅, deletions := segments.map Segment.val }) :
    ∃ store, (commit q.text : QueueM ε Unit) s =
        .ok () { s with keeper := { s.keeper with store }, buffer := {} } ∧
      StoresChildren store q fun c => if c ∈ segments then none else f c := by
  obtain ⟨store, hrun, hs⟩ := bridgeDeletes_run (ε := ε) h hq segments
  refine ⟨store, ?_, hs⟩
  rw [commit, bind_run get_run, hbuf]
  exact (bind_run rfl).trans ((bind_run hrun).trans rfl)

theorem commit_addition_run (h : StoresChildren s.keeper.store q f) (hq : q ≠ [])
    {c : Segment} {value : Bytes} {segments : List Segment}
    (hbuf : s.buffer =
      { additions := (∅ : Table Bytes Bytes).insert c.val value
        deletions := segments.map Segment.val }) :
    ∃ store, (commit q.text : QueueM ε Unit) s =
        .ok () { s with keeper := { s.keeper with store }, buffer := {} } ∧
      StoresChildren store q fun d =>
        if d ∈ segments then none else Function.update f c (some value) d := by
  obtain ⟨store, hset, hs⟩ := setStorage_child h hq c (some value)
  obtain ⟨store', hrun, hs'⟩ := bridgeDeletes_run (ε := ε)
    (s := { s with keeper := { s.keeper with store } }) hs hq segments
  refine ⟨store', ?_, hs'⟩
  rw [commit, bind_run get_run, hbuf]
  have hvalue : (Table.insert (∅ : Table Bytes Bytes) c.val value).lookup c.val = some value := by
    rw [Table.lookup_insert, if_pos rfl]
  have hsets : ((Table.insert (∅ : Table Bytes Bytes) c.val value).keys.insertionSort
      (· ≤ ·)).forM (fun key => bridgeSet q.text key
        (((Table.insert (∅ : Table Bytes Bytes) c.val value).lookup key).getD [])) s =
      (.ok () { s with keeper := { s.keeper with store } } : EStateM.Result (QueueFault ε) _ _) := by
    change (bridgeSet q.text c.val
      (((Table.insert (∅ : Table Bytes Bytes) c.val value).lookup c.val).getD []) >>=
        fun _ => pure ()) s = _
    rw [hvalue]
    exact (bind_run (bridge_run hset)).trans rfl
  exact (bind_run hsets).trans ((bind_run hrun).trans rfl)

/-- The indices of the first `k` items. -/
def taken (head k : Nat) : List Segment := (List.range k).map fun j => indexSegment (head + j)

theorem mem_taken {c : Segment} {k : Nat} :
    c ∈ taken head k ↔ ∃ j < k, c = indexSegment (head + j) := by
  simp only [taken, List.mem_map, List.mem_range]
  exact ⟨fun ⟨j, hj, h⟩ => ⟨j, hj, h.symm⟩, fun ⟨j, hj, h⟩ => ⟨j, hj, h.symm⟩⟩

theorem indexSegment_mem_taken {n k : Nat} :
    indexSegment n ∈ taken head k ↔ head ≤ n ∧ n < head + k := by
  rw [mem_taken]
  constructor
  · rintro ⟨j, hj, h⟩
    have := indexSegment_injective h
    omega
  · rintro ⟨hle, hlt⟩
    exact ⟨n - head, by omega, by rw [Nat.add_sub_cancel' hle]⟩

theorem headSegment_notMem_taken {k : Nat} : headSegment ∉ taken head k := fun hm => by
  obtain ⟨j, -, hj⟩ := mem_taken.mp hm
  exact headSegment_ne_indexSegment _ hj

theorem tailSegment_notMem_taken {k : Nat} : tailSegment ∉ taken head k := fun hm => by
  obtain ⟨j, -, hj⟩ := mem_taken.mp hm
  exact tailSegment_ne_indexSegment _ hj

theorem val_mem_map {c : Segment} {segments : List Segment} :
    c.val ∈ segments.map Segment.val ↔ c ∈ segments :=
  List.mem_map_of_injective fun _ _ => Segment.ext

/-- An iteration that has taken `k` items: their deletions wait in the buffer and
its iterator stands at the next one. -/
structure Midway (s : QueueState) (it : Iterator) (head len k : Nat) : Prop where
  buffer : s.buffer = { additions := ∅, deletions := (taken head k).map Segment.val }
  current : s.currentIterator = some it.id
  iterator : it = { id := it.id, head := (head + k : Nat), tail := (head + len : Nat), done := false }

theorem checkCurrent_run {it : Iterator} (h : s.currentIterator = some it.id) :
    (checkCurrent it : QueueM ε Unit) s = .ok () s := by
  rw [checkCurrent, bind_run get_run, if_neg (by rw [h]; simp)]
  rfl

theorem bufferDelete_run {key : Bytes} {deletions : List Bytes}
    (hbuf : s.buffer = { additions := ∅, deletions }) (hnot : key ∉ deletions) :
    (bufferDelete key : QueueM ε Unit) s =
      .ok () { s with buffer := { additions := ∅, deletions := deletions ++ [key] } } := by
  obtain ⟨keeper, buffer, currentIterator, iterators⟩ := s
  cases hbuf
  have hdel : (if key ∈ deletions then deletions else deletions ++ [key]) = deletions ++ [key] :=
    if_neg hnot
  rw [← hdel]
  rfl

theorem bufferSet_run {key : Bytes} (value : Bytes) {deletions : List Bytes}
    (hbuf : s.buffer = { additions := ∅, deletions }) (hnot : key ∉ deletions) :
    (bufferSet key value : QueueM ε Unit) s = .ok () { s with
      buffer := { additions := (∅ : Table Bytes Bytes).insert key value, deletions } } := by
  have hfilter : deletions.filter (· ≠ key) = deletions := by
    apply List.filter_eq_self.mpr
    intro k hk
    have hne : k ≠ key := fun he => hnot (he ▸ hk)
    simpa using hne
  obtain ⟨keeper, buffer, currentIterator, iterators⟩ := s
  cases hbuf
  change EStateM.Result.ok () (QueueState.mk keeper
    { additions := (∅ : Table Bytes Bytes).insert key value
      deletions := deletions.filter (· ≠ key) } currentIterator iterators) = _
  rw [hfilter]

theorem bufferDelete_taken {it : Iterator} {k : Nat} (hmid : Midway s it head items.length k) :
    (bufferDelete (indexSegment (head + k)).val : QueueM ε Unit) s = .ok () { s with
      buffer := { additions := ∅, deletions := (taken head (k + 1)).map Segment.val } } := by
  have hnot : (indexSegment (head + k)).val ∉ (taken head k).map Segment.val := by
    rw [val_mem_map, indexSegment_mem_taken]
    omega
  have hsucc : (taken head (k + 1)).map Segment.val =
      (taken head k).map Segment.val ++ [(indexSegment (head + k)).val] := by
    simp [taken, List.range_succ]
  rw [hsucc]
  exact bufferDelete_run hmid.buffer hnot

theorem next_item_run (h : StoresChildren s.keeper.store q f) (hq : q ≠ [])
    (hqueue : HoldsQueue json f head items) {it : Iterator} {k : Nat}
    (hmid : Midway s it head items.length k) (hk : k < items.length) :
    ∃ it', it'.id = it.id ∧ (it.next json q.text : QueueM ε _) s =
        .ok (it', some items[k]) { s with
          buffer := { additions := ∅, deletions := (taken head (k + 1)).map Segment.val } } ∧
      Midway { s with
          buffer := { additions := ∅, deletions := (taken head (k + 1)).map Segment.val } }
        it' head items.length (k + 1) := by
  have hnot : (indexSegment (head + k)).val ∉ s.buffer.deletions := by
    rw [hmid.buffer, val_mem_map, indexSegment_mem_taken]
    omega
  have hitem : f (indexSegment (head + k)) = some (json.stringify items[k]) := by
    rw [hqueue.item, if_pos (by omega), Nat.add_sub_cancel_left, List.getElem?_eq_getElem hk]
    rfl
  have hread := bufferGet_run (ε := ε) h hq (c := indexSegment (head + k))
    (by rw [hmid.buffer]; rfl) hnot
  rw [hitem] at hread
  obtain ⟨id, hd, tl, dn⟩ := it
  obtain ⟨rfl, rfl, rfl⟩ : hd = (head + k : Nat) ∧ tl = (head + items.length : Nat) ∧ dn = false := by
    simpa using hmid.iterator
  have hlt : ((head + k : Nat) : Int) < (head + items.length : Nat) := by omega
  refine ⟨⟨id, (head + (k + 1) : Nat), (head + items.length : Nat), false⟩, rfl, ?_, rfl,
    hmid.current, rfl⟩
  rw [Iterator.next, bind_run (checkCurrent_run hmid.current)]
  simp only [Bool.not_false, if_true, if_pos hlt]
  refine (bind_run hread).trans ?_
  have hparse : (some (json.stringify items[k])).bind json.parse = some items[k] :=
    json.parse_stringify _
  simp only [hparse]
  exact (bind_run (bufferDelete_taken hmid)).trans rfl

theorem HoldsQueue.drop (h : HoldsQueue json f head items) {k : Nat} (hk : k ≤ items.length) :
    HoldsQueue json (fun c => if c ∈ taken head k then none
        else Function.update f headSegment (some (decimal (head + k))) c)
      (head + k) (items.drop k) where
  headEntry := by
    left
    simp only [if_neg headSegment_notMem_taken, Function.update_self]
  tailEntry := by
    have hlen : head + k + (items.drop k).length = head + items.length := by
      rw [List.length_drop]
      omega
    unfold IndexAt
    simp only [if_neg tailSegment_notMem_taken,
      Function.update_of_ne headSegment_ne_tailSegment.symm, hlen]
    exact h.tailEntry
  item n := by
    rw [Function.update_of_ne (headSegment_ne_indexSegment n).symm, h.item]
    by_cases hle : head + k ≤ n
    · rw [if_neg (by rw [indexSegment_mem_taken]; omega), if_pos (by omega), if_pos hle,
        List.getElem?_drop]
      congr 2
      omega
    · rw [if_neg hle]
      by_cases hmem : indexSegment n ∈ taken head k
      · rw [if_pos hmem]
      · rw [if_neg hmem, if_neg fun hn => hmem (indexSegment_mem_taken.mpr ⟨hn, by omega⟩)]
  bound := by
    have := h.bound
    rw [List.length_drop]
    omega

theorem HoldsQueue.clear (h : HoldsQueue json f head items) :
    HoldsQueue json (fun c => if c ∈ taken head items.length ++ [headSegment, tailSegment]
      then none else f c) 0 ([] : List V) where
  headEntry := .inr ⟨by simp, rfl⟩
  tailEntry := .inr ⟨by simp, rfl⟩
  item n := by
    have hnone : (if indexSegment n ∈ taken head items.length ++ [headSegment, tailSegment]
        then none else f (indexSegment n)) = none := by
      by_cases hmem : indexSegment n ∈ taken head items.length
      · rw [if_pos (List.mem_append_left _ hmem)]
      · have hitem := h.item n
        by_cases hle : head ≤ n
        · have hlen : items.length ≤ n - head := by
            rw [indexSegment_mem_taken] at hmem
            omega
          rw [if_pos hle, List.getElem?_eq_none hlen] at hitem
          simp [hitem]
        · rw [if_neg hle] at hitem
          simp [hitem]
    simpa using hnone
  bound := by simp

/-- What a queue looks like between two operations. -/
def Rests (json : ItemJSON V) (q : Path) (s : QueueState) (items : List V) : Prop :=
  s.buffer = {} ∧ ∃ f head, StoresChildren s.keeper.store q f ∧ HoldsQueue json f head items

theorem next_end_run (h : StoresChildren s.keeper.store q f) (hq : q ≠ [])
    (hqueue : HoldsQueue json f head items) {it : Iterator}
    (hmid : Midway s it head items.length items.length) :
    ∃ it' s', (it.next json q.text : QueueM ε _) s = .ok (it', none) s' ∧
      Rests json q s' ([] : List V) := by
  have hhead : headSegment.val ∉ (taken head items.length).map Segment.val := by
    rw [val_mem_map]
    exact headSegment_notMem_taken
  have htail : tailSegment.val ∉
      (taken head items.length).map Segment.val ++ [headSegment.val] := by
    rw [← List.map_singleton, ← List.map_append, val_mem_map, List.mem_append, List.mem_singleton]
    rintro (hm | hm)
    · exact tailSegment_notMem_taken hm
    · exact headSegment_ne_tailSegment hm.symm
  have hdelete := bufferDelete_run (ε := ε) hmid.buffer hhead
  have hdelete' := bufferDelete_run (ε := ε) (s := { s with buffer :=
    { additions := ∅
      deletions := (taken head items.length).map Segment.val ++ [headSegment.val] } }) rfl htail
  obtain ⟨store, hcommit, hs⟩ := commit_deletions_run (ε := ε) (s := { s with buffer :=
    { additions := ∅
      deletions := ((taken head items.length).map Segment.val ++ [headSegment.val]) ++
        [tailSegment.val] } }) (taken head items.length ++ [headSegment, tailSegment])
    h hq (by simp)
  obtain ⟨id, hd, tl, dn⟩ := it
  obtain ⟨rfl, rfl, rfl⟩ :
      hd = (head + items.length : Nat) ∧ tl = (head + items.length : Nat) ∧ dn = false := by
    simpa using hmid.iterator
  refine ⟨⟨id, (head + items.length : Nat), (head + items.length : Nat), true⟩,
    { s with keeper := { s.keeper with store }, buffer := {} }, ?_, rfl, _, _, hs, hqueue.clear⟩
  rw [Iterator.next, bind_run (checkCurrent_run hmid.current)]
  simp only [Bool.not_false, if_true, lt_self_iff_false, if_false]
  exact (bind_run hdelete).trans ((bind_run hdelete').trans ((bind_run hcommit).trans rfl))

theorem close_run (h : StoresChildren s.keeper.store q f) (hq : q ≠ [])
    (hqueue : HoldsQueue json f head items) {it : Iterator} {k : Nat}
    (hmid : Midway s it head items.length k) (hk : k ≤ items.length) :
    ∃ it' s', (it.close q.text : QueueM ε _) s = .ok it' s' ∧ Rests json q s' (items.drop k) := by
  have hset := bufferSet_run (ε := ε) (decimal (head + k)) hmid.buffer
    (val_mem_map.not.mpr headSegment_notMem_taken)
  obtain ⟨store, hcommit, hs⟩ := commit_addition_run (ε := ε) (s := { s with buffer :=
    { additions := (∅ : Table Bytes Bytes).insert headSegment.val (decimal (head + k))
      deletions := (taken head k).map Segment.val } }) h hq rfl
  obtain ⟨id, hd, tl, dn⟩ := it
  obtain ⟨rfl, rfl, rfl⟩ :
      hd = (head + k : Nat) ∧ tl = (head + items.length : Nat) ∧ dn = false := by
    simpa using hmid.iterator
  refine ⟨⟨id, (head + k : Nat), (head + items.length : Nat), true⟩,
    { s with keeper := { s.keeper with store }, buffer := {} }, ?_, rfl, _, _, hs, hqueue.drop hk⟩
  rw [Iterator.close, bind_run (checkCurrent_run hmid.current)]
  exact (bind_run hset).trans ((bind_run hcommit).trans rfl)

theorem raise_run {it : Iterator} {len k : Nat} (hmid : Midway s it head len k) (err : ε) :
    attempt (it.raise err) s = .ok (.error (.thrown err)) { s with buffer := {} } := by
  have hdone : it.done = false := by rw [hmid.iterator]
  have hrun : (it.raise err) s = .error (.thrown err) { s with buffer := {} } := by
    rw [Iterator.raise, bind_run (checkCurrent_run hmid.current), hdone]
    rfl
  rw [attempt, hrun]

/-- Whether an iteration ends by handing an exception to the iterator. -/
def Ending.raises : Ending ε → Bool
  | .close => false
  | .raise _ => true

theorem consumeLoop_run (hq : q ≠ []) (hqueue : HoldsQueue json f head items) (ending : Ending ε)
    (limit : Nat) {s : QueueState} {it : Iterator} {k : Nat}
    (h : StoresChildren s.keeper.store q f) (hmid : Midway s it head items.length k)
    (hk : k ≤ items.length) :
    ∃ undone s', consumeLoop json q.text ending limit it s =
        .ok ((items.drop k).take limit, undone) s' ∧
      undone = (ending.raises && decide (limit ≤ items.length - k)) ∧
      Rests json q s' (if undone then items else items.drop (k + limit)) := by
  induction limit generalizing s it k with
  | zero =>
    cases ending with
    | close =>
      obtain ⟨it', s', hrun, hrests⟩ := close_run (ε := ε) h hq hqueue hmid hk
      exact ⟨false, s', (bind_run hrun).trans rfl, rfl, hrests⟩
    | raise err =>
      refine ⟨true, { s with buffer := {} }, (bind_run (raise_run hmid err)).trans rfl, ?_,
        rfl, f, head, h, hqueue⟩
      simp [Ending.raises]
  | succ limit ih =>
    obtain hlt | rfl := Nat.lt_or_eq_of_le hk
    · obtain ⟨it', -, hnext, hmid'⟩ := next_item_run (ε := ε) h hq hqueue hmid hlt
      obtain ⟨undone, s', hrun, hundone, hrests⟩ := ih (s := { s with buffer :=
        { additions := ∅, deletions := (taken head (k + 1)).map Segment.val } }) h hmid' hlt
      refine ⟨undone, s', ?_, ?_, ?_⟩
      · rw [List.drop_eq_getElem_cons hlt, List.take_succ_cons, consumeLoop]
        exact (bind_run hnext).trans ((bind_run hrun).trans rfl)
      · rw [hundone]
        congr 2
        exact propext ⟨fun _ => by omega, fun _ => by omega⟩
      · rwa [Nat.add_right_comm, Nat.add_assoc] at hrests
    · obtain ⟨it', s', hnext, hrests⟩ := next_end_run (ε := ε) h hq hqueue hmid
      refine ⟨false, s', ?_, ?_, ?_⟩
      · rw [List.drop_length, List.take_nil, consumeLoop]
        exact (bind_run hnext).trans rfl
      · simp
      · rw [List.drop_eq_nil_of_le (by omega)]
        exact hrests

theorem consumeAll_run (h : StoresChildren s.keeper.store q f) (hq : q ≠ [])
    (hqueue : HoldsQueue json f head items) (hbuf : s.buffer = {}) :
    (consumeAll q.text : QueueM ε Iterator) s = .ok
      { id := s.iterators, head := head, tail := (head + items.length : Nat)
        done := !decide ((head : Int) < (head + items.length : Nat)) }
      { s with currentIterator := some s.iterators, iterators := s.iterators + 1 } := by
  have hhead := getIndex_run (ε := ε) h hq hqueue.headEntry hbuf
  have htail := getIndex_run (ε := ε) h hq hqueue.tailEntry hbuf
  rw [consumeAll]
  exact (bind_run hhead).trans ((bind_run htail).trans rfl)

theorem consumeLoop_done {it : Iterator} (hcur : s.currentIterator = some it.id)
    (hdone : it.done = true) (ending : Ending ε) (limit : Nat) :
    consumeLoop json q.text ending limit it s = .ok ([], false) s := by
  cases limit with
  | zero =>
    cases ending with
    | close =>
      have hclose : (it.close q.text : QueueM ε _) s = .ok it s := by
        rw [Iterator.close, bind_run (checkCurrent_run hcur), hdone]
        rfl
      exact (bind_run hclose).trans rfl
    | raise err =>
      have hraise : (it.raise err) s = .ok it s := by
        rw [Iterator.raise, bind_run (checkCurrent_run hcur), hdone]
        rfl
      have hattempt : attempt (it.raise err) s = .ok (.ok it) s := by
        rw [attempt, hraise]
      exact (bind_run hattempt).trans rfl
  | succ limit =>
    have hnext : (it.next json q.text : QueueM ε _) s = .ok (it, none) s := by
      rw [Iterator.next, bind_run (checkCurrent_run hcur), hdone]
      rfl
    rw [consumeLoop]
    exact (bind_run hnext).trans rfl

/-- Whether an iteration of so many items is undone. -/
def undoes (ending : Ending ε) (limit length : Nat) : Bool :=
  ending.raises && decide (limit ≤ length ∧ 0 < length)

/-- An iteration hands out the first items of the queue, and takes them off
unless it is undone. -/
theorem consume_run (hq : q ≠ []) (hrests : Rests json q s items) (limit : Nat)
    (ending : Ending ε) :
    ∃ s', consume json q.text limit ending s =
        .ok (items.take limit, undoes ending limit items.length) s' ∧
      Rests json q s' (if undoes ending limit items.length then items else items.drop limit) := by
  obtain ⟨hbuf, f, head, h, hqueue⟩ := hrests
  have hall := consumeAll_run (ε := ε) h hq hqueue hbuf
  cases hitems : items with
  | nil =>
    subst hitems
    have hloop : consumeLoop json q.text ending limit
        { id := s.iterators, head := head, tail := (head + 0 : Nat), done := true }
        { s with currentIterator := some s.iterators, iterators := s.iterators + 1 } = _ :=
      consumeLoop_done rfl rfl ending limit
    have hund : undoes ending limit (List.length ([] : List V)) = false := by simp [undoes]
    refine ⟨{ s with currentIterator := some s.iterators, iterators := s.iterators + 1 }, ?_,
      hbuf, f, head, h, ?_⟩
    · rw [consume, List.take_nil, hund]
      refine (bind_run hall).trans ?_
      have hdone : (!decide ((head : Int) < (head + List.length ([] : List V) : Nat))) = true := by
        simp
      rw [hdone]
      exact hloop
    · rw [hund, List.drop_nil]
      exact hqueue
  | cons item rest =>
    rw [← hitems]
    have hpos : 0 < items.length := by rw [hitems]; exact Nat.succ_pos _
    have hdone : (!decide ((head : Int) < (head + items.length : Nat))) = false := by
      simp only [Bool.not_eq_false', decide_eq_true_eq]
      omega
    rw [hdone] at hall
    have hmid : Midway { s with currentIterator := some s.iterators, iterators := s.iterators + 1 }
        { id := s.iterators, head := head, tail := (head + items.length : Nat), done := false }
        head items.length 0 := ⟨hbuf, rfl, rfl⟩
    obtain ⟨undone, s', hrun, hundone, hrests⟩ :=
      consumeLoop_run hq hqueue ending limit
        (s := { s with currentIterator := some s.iterators, iterators := s.iterators + 1 })
        h hmid (Nat.zero_le _)
    have heq : undone = undoes ending limit items.length := by
      rw [hundone, undoes]
      congr 2
      exact propext ⟨fun hle => ⟨by omega, hpos⟩, fun hle => by omega⟩
    subst heq
    rw [List.drop_zero] at hrun
    rw [Nat.zero_add] at hrests
    exact ⟨s', (bind_run hall).trans hrun, hrests⟩

end Fifo

section World

variable {V ε : Type}

/-- A queue with what went into it and what each iteration handed out, with
whether the iteration was undone. -/
structure World (V : Type) where
  queue : QueueState
  pushed : List V := []
  iterations : List (List V × Bool) := []

/-- All items handed out, in order. -/
def World.yielded (w : World V) : List V := w.iterations.flatMap Prod.fst

/-- The items handed out by iterations that were not undone, in order. -/
def World.consumed (w : World V) : List V :=
  (w.iterations.filter fun i => !i.2).flatMap Prod.fst

/-- One operation of either side. -/
inductive QueueAction (V ε : Type) where
  | push (item : V)
  | consume (limit : Nat) (ending : Ending ε)

/-- An item is pushed when the call returns no error. -/
def World.step (sdk : SDKInt) (json : ItemJSON V) (queuePath : Bytes) (w : World V) :
    QueueAction V ε → World V
  | .push item =>
    match pushQueueItem sdk queuePath (json.stringify item) w.queue.keeper with
    | .ok (.ok ()) keeper =>
      { w with queue := { w.queue with keeper }, pushed := w.pushed ++ [item] }
    | .ok (.error _) keeper | .error _ keeper => { w with queue := { w.queue with keeper } }
  | .consume limit ending =>
    match Vstorage.consume json queuePath limit ending w.queue with
    | .ok iteration queue => { w with queue, iterations := w.iterations ++ [iteration] }
    | .error _ queue => { w with queue }

def World.run (sdk : SDKInt) (json : ItemJSON V) (queuePath : Bytes)
    (actions : List (QueueAction V ε)) (w : World V) : World V :=
  actions.foldl (fun w a => w.step sdk json queuePath a) w

variable {sdk : SDKInt} {json : ItemJSON V} {q : Path}

/-- The queue holds what was pushed and not yet consumed. -/
def World.Consistent (json : ItemJSON V) (q : Path) (w : World V) : Prop :=
  ∃ pending, w.pushed = w.consumed ++ pending ∧ Rests json q w.queue pending

theorem World.consumed_append (w : World V) (queue : QueueState) (items : List V) (undone : Bool) :
    { w with queue, iterations := w.iterations ++ [(items, undone)] : World V }.consumed =
      w.consumed ++ if undone then [] else items := by
  cases undone <;> simp [World.consumed]

theorem World.Consistent.push {w : World V} (h : w.Consistent json q) (hq : q ≠ []) (item : V) :
    (w.step (ε := ε) sdk json q.text (.push item)).Consistent json q := by
  obtain ⟨pending, hpushed, hbuf, f, head, hs, hqueue⟩ := h
  by_cases hroom : head + pending.length < 2 ^ 256 - 1
  · obtain ⟨store, f', hrun, hs', hqueue'⟩ :=
      pushQueueItem_run sdk hs hq hqueue item hroom
    refine ⟨pending ++ [item], ?_, ?_⟩
    · rw [World.step, hrun]
      change w.pushed ++ [item] = w.consumed ++ (pending ++ [item])
      rw [hpushed, List.append_assoc]
    · rw [World.step, hrun]
      exact ⟨hbuf, f', head, hs', hqueue'⟩
  · rw [World.step, pushQueueItem_overflow hs hq hqueue item hroom]
    exact ⟨pending, hpushed, hbuf, f, head, hs, hqueue⟩

theorem World.Consistent.consume {w : World V} (h : w.Consistent json q) (hq : q ≠ [])
    (limit : Nat) (ending : Ending ε) :
    (w.step sdk json q.text (.consume limit ending)).Consistent json q := by
  obtain ⟨pending, hpushed, hrests⟩ := h
  obtain ⟨s', hrun, hrests'⟩ := consume_run hq hrests limit ending
  rw [World.step, hrun]
  refine ⟨_, ?_, hrests'⟩
  rw [World.consumed_append]
  change w.pushed = _
  cases undoes ending limit pending.length with
  | true => simp [hpushed]
  | false =>
    simp only [Bool.false_eq_true, if_false]
    rw [List.append_assoc, List.take_append_drop, hpushed]

theorem World.Consistent.run (sdk : SDKInt) {w : World V} (h : w.Consistent json q) (hq : q ≠ [])
    (actions : List (QueueAction V ε)) : (w.run sdk json q.text actions).Consistent json q := by
  induction actions generalizing w with
  | nil => exact h
  | cons a actions ih =>
    cases a with
    | push item => exact ih (h.push hq item)
    | consume limit ending => exact ih (h.consume hq limit ending)

/-- What both sides see of a queue that holds the items from `head` on. -/
structure BothRead (sdk : SDKInt) (json : ItemJSON V) (q : Path) (s : QueueState) (head : Nat)
    (items : List V) : Prop where
  length : getQueueLength sdk q.text s.keeper = .ok (.ok (items.length : Int)) s.keeper
  entry : ∀ n, getEntry (bridgeKey q.text (decimal n)) s.keeper =
    .ok ⟨bridgeKey q.text (decimal n),
      if head ≤ n then (items[n - head]?).map json.stringify else none⟩ s.keeper
  key : ∀ n, hasEntry (bridgeKey q.text (decimal n)) s.keeper =
    .ok (decide (head ≤ n ∧ n < head + items.length)) s.keeper
  headIndex : getIntValue sdk (q.text ++ ".head".toList) s.keeper = .ok (.ok head) s.keeper ∧
    (getHead q.text : QueueM Unit Int) s = .ok (head : Int) s
  tailIndex : getIntValue sdk (q.text ++ ".tail".toList) s.keeper =
      .ok (.ok (head + items.length : Nat)) s.keeper ∧
    (getTail q.text : QueueM Unit Int) s = .ok ((head + items.length : Nat) : Int) s

theorem Rests.bothRead (sdk : SDKInt) {s : QueueState} {items : List V} (h : Rests json q s items) (hq : q ≠ []) :
    ∃ head, BothRead sdk json q s head items := by
  obtain ⟨hbuf, f, head, hs, hqueue⟩ := h
  refine ⟨head, getQueueLength_run hs hq hqueue, fun n => ?_, fun n => ?_, ⟨?_, ?_⟩, ⟨?_, ?_⟩⟩
  · rw [← hqueue.item n]
    exact getEntry_child hs hq (indexSegment n)
  · have hread := hasEntry_child hs hq (indexSegment n)
    have hsome : (f (indexSegment n)).isSome = decide (head ≤ n ∧ n < head + items.length) := by
      rw [hqueue.item n]
      by_cases hle : head ≤ n
      · have hiff : n - head < items.length ↔ n < head + items.length := by omega
        by_cases hlt : n < head + items.length
        · simp [hle, hlt, hiff.mpr hlt]
        · have hnone : items[n - head]? = none :=
            List.getElem?_eq_none (Nat.le_of_not_lt (hiff.not.mpr hlt))
          simp [hle, hlt, hnone]
      · simp [hle]
    rw [hsome] at hread
    exact hread
  · have hhead := getIntValue_run sdk hs hq hqueue.headEntry (by have := hqueue.bound; omega)
    exact hhead
  · exact getIndex_run hs hq hqueue.headEntry hbuf
  · have htail := getIntValue_run sdk hs hq hqueue.tailEntry hqueue.bound
    exact htail
  · exact getIndex_run hs hq hqueue.tailEntry hbuf

theorem index_read_alike (hq : q ≠ []) {s : QueueState} {f : Segment → Option Bytes}
    (h : StoresChildren s.keeper.store q f) (hbuf : s.buffer = {}) {c : Segment} {n : Nat}
    (hn : IndexAt f c n) (hlt : n < 2 ^ 256) :
    getIntValue sdk (bridgeKey q.text c.val) s.keeper = .ok (.ok n) s.keeper ∧
      (getIndex q.text c.val : QueueM ε Int) s = .ok (n : Int) s :=
  ⟨getIntValue_run sdk h hq hn hlt, getIndex_run h hq hn hbuf⟩

/-- Whatever the two sides do in turns to a queue that starts empty, the items
pushed are those consumed, in order, and those that still wait: both sides see
these, the next iteration starts with them, and no other item has a key. An
iteration that is undone hands items out without consuming them. Indices that
are missing are read alike in any state of the storage. -/
theorem queue_is_fifo (sdk : SDKInt) (json : ItemJSON V) (q : Path) (hq : q ≠ [])
    (keeper : KeeperState) (hempty : StoresChildren keeper.store q fun _ => none)
    (actions : List (QueueAction V ε)) :
    (let w := World.run sdk json q.text actions { queue := { keeper } }
    ∃ pending head, w.pushed = w.consumed ++ pending ∧
      BothRead sdk json q w.queue head pending ∧
      ∀ (limit : Nat) (ending : Ending ε), ∃ queue,
        consume json q.text limit ending w.queue =
          .ok (pending.take limit, undoes ending limit pending.length) queue) ∧
    ∀ (s : QueueState) (f : Segment → Option Bytes), StoresChildren s.keeper.store q f →
      s.buffer = {} → ∀ c n, IndexAt f c n → n < 2 ^ 256 →
        getIntValue sdk (bridgeKey q.text c.val) s.keeper = .ok (.ok n) s.keeper ∧
          (getIndex q.text c.val : QueueM ε Int) s = .ok (n : Int) s := by
  refine ⟨?_, fun s f hs hbuf c n hn hlt => index_read_alike hq hs hbuf hn hlt⟩
  intro w
  have hinit : World.Consistent json q ({ queue := { keeper } } : World V) :=
    ⟨[], rfl, rfl, _, 0, hempty, .inr ⟨rfl, rfl⟩, .inr ⟨rfl, rfl⟩, fun n => by simp, by simp⟩
  obtain ⟨pending, hpushed, hrests⟩ := hinit.run sdk hq actions
  obtain ⟨head, hread⟩ := hrests.bothRead sdk hq
  refine ⟨pending, head, hpushed, hread, fun limit ending => ?_⟩
  obtain ⟨s', hrun, -⟩ := consume_run hq hrests limit ending
  exact ⟨s', hrun⟩

/-- Parsing of numerals as the iterator's side does it. -/
def numeralSDKInt : SDKInt where
  newIntFromString := bigInt
  newIntFromString_decimal n _ := bigInt_decimal n

/-- The truth values as JSON. -/
def boolJSON : ItemJSON Bool where
  stringify b := if b then "true".toList else "false".toList
  parse text := if text = "true".toList then some true
    else if text = "false".toList then some false else none
  parse_stringify b := by cases b <;> decide

def actionQueue : Path := [⟨"actionQueue".toList, by decide, List.all_eq_true.mp (by decide)⟩]

theorem storesChildren_empty (q : Path) : StoresChildren ∅ q fun _ => none := by
  refine ⟨fun _ => none, ?_, fun _ => rfl, fun _ _ h => by cases h⟩
  exact runCalls_storesTree ⟨fun _ => .error [], fun _ => ⟨[], []⟩⟩ []

theorem queue_is_fifo_of_actionQueue :
    let w := World.run numeralSDKInt boolJSON (Path.text actionQueue)
      [.push true, .push false, .consume 1 (.raise ()), .consume 1 .close, .push true]
      { queue := { keeper := {} } }
    ∃ pending head, w.pushed = w.consumed ++ pending ∧
      BothRead numeralSDKInt boolJSON actionQueue w.queue head pending := by
  obtain ⟨⟨pending, head, hpushed, hread, -⟩, -⟩ := queue_is_fifo numeralSDKInt boolJSON
    actionQueue (by decide) {} (storesChildren_empty _)
    [.push true, .push false, .consume 1 (.raise ()), .consume 1 .close, .push true]
  exact ⟨pending, head, hpushed, hread⟩

/-- An item is handed out again after an exception was handed to its iterator. -/
theorem yielded_again :
    let w := World.run numeralSDKInt boolJSON (Path.text actionQueue)
      [.push true, .consume 1 (.raise ()), .consume 1 .close] { queue := { keeper := {} } }
    w.pushed = [true] ∧ w.yielded = [true, true] := by
  decide +kernel

end World

end AgoricSdk.Vstorage
