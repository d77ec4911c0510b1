import AgoricSdk.Storage.MapStore

/-!
Buffered storage: writes and deletions are kept beside the store that is wrapped
until they are committed or aborted. What a user of the buffer sees is the
store's contents with both applied to them.
-/

namespace AgoricSdk.Storage

open OrderedMap

variable {α σ : Type}

structure Buffer (α σ : Type) where
  additions : MapStore α := {}
  deletions : List Key := []
  store : σ

/-- The callbacks of `makeBufferedStorage`. -/
structure Listeners (α σ : Type) where
  onGet : Key → Option α → Buffer α σ → Buffer α σ := fun _ _ b => b
  onPendingSet : Key → Option α → Buffer α σ → Buffer α σ := fun _ _ b => b
  onPendingDelete : Key → Buffer α σ → Buffer α σ := fun _ b => b
  onCommit : Buffer α σ → Buffer α σ := id
  onAbort : Buffer α σ → Buffer α σ := id

namespace Buffer

variable (store : KVStore α σ) (listeners : Listeners α σ)

def has (key : Key) (b : Buffer α σ) : Bool × Buffer α σ :=
  let (added, additions) := b.additions.has key
  if added then (true, { b with additions })
  else if key ∈ b.deletions then (false, { b with additions })
  else
    let (present, s) := store.has key b.store
    (present, { b with additions, store := s })

def get (key : Key) (b : Buffer α σ) : Option α × Buffer α σ :=
  let (added, additions) := b.additions.has key
  if added then
    let (value, additions) := additions.get key
    (value, { b with additions })
  else if key ∈ b.deletions then (none, { b with additions })
  else
    let (value, s) := store.get key b.store
    (value, listeners.onGet key value { b with additions, store := s })

def set (key : Key) (value : Option α) (b : Buffer α σ) : Buffer α σ :=
  listeners.onPendingSet key value { b with
    additions := b.additions.set key value
    deletions := b.deletions.filter (· ≠ key) }

def delete (key : Key) (b : Buffer α σ) : Buffer α σ :=
  listeners.onPendingDelete key { b with
    additions := b.additions.delete key
    deletions := if key ∈ b.deletions then b.deletions else b.deletions ++ [key] }

/-- The loop of `getNextKey`, from the next key of the store. -/
def skipDeleted (deletions : List Key) (bufferedNextKey : Option Key) :
    Nat → Option Key → σ → Except StoreFault (Option Key) × σ
  | 0, _, s => (.error .outOfFuel, s)
  | _ + 1, none, s => (.ok bufferedNextKey, s)
  | n + 1, some nextKey, s =>
    if bufferedNextKey.any fun buffered => compareByCodePoints buffered nextKey ≤ 0 then
      (.ok bufferedNextKey, s)
    else if nextKey ∉ deletions then (.ok (some nextKey), s)
    else
      match store.getNextKey nextKey s with
      | (.error fault, s) => (.error fault, s)
      | (.ok nextKey, s) => skipDeleted deletions bufferedNextKey n nextKey s

def getNextKey (previousKey : Key) (b : Buffer α σ) :
    Except StoreFault (Option Key) × Buffer α σ :=
  let (bufferedNextKey, additions) := b.additions.getNextKey previousKey
  match store.getNextKey previousKey b.store with
  | (.error fault, s) => (.error fault, { b with additions, store := s })
  | (.ok nextKey, s) =>
    let fuel := store.fuel s + 1
    let (answer, s) := skipDeleted store b.deletions bufferedNextKey fuel nextKey s
    (answer, { b with additions, store := s })

/-- One round of the loop over the additions. -/
def commitAddition (key : Key) (b : Buffer α σ) : Buffer α σ :=
  let (value, additions) := b.additions.get key
  { b with additions, store := store.set key value b.store }

/-- `additions.clear()` -/
def clear (additions : MapStore α) : Except StoreFault (MapStore α) :=
  forEachKey MapStore.has makeKVStoreFromMap.getNextKey MapStore.delete
    (makeKVStoreFromMap.fuel additions) additions

/-- A method of the additions, on the whole buffer. -/
def onAdditions {β : Type} (method : MapStore α → β × MapStore α) (b : Buffer α σ) :
    β × Buffer α σ :=
  let (answer, additions) := method b.additions
  (answer, { b with additions })

def commit (b : Buffer α σ) : Except StoreFault (Buffer α σ) := do
  let b ← forEachKey (fun key => onAdditions (MapStore.has key))
    (fun key => onAdditions (makeKVStoreFromMap.getNextKey key)) (commitAddition store)
    (makeKVStoreFromMap.fuel b.additions) b
  let s := b.deletions.foldl (fun s key => store.delete key s) b.store
  let additions ← clear b.additions
  return listeners.onCommit { additions, deletions := [], store := s }

def abort (b : Buffer α σ) : Except StoreFault (Buffer α σ) := do
  let additions ← clear b.additions
  return listeners.onAbort { b with additions, deletions := [] }

end Buffer

/-- What `makeBufferedStorage` returns. -/
structure BufferedStorage (α τ : Type) where
  kvStore : KVStore α τ
  commit : τ → Except StoreFault τ
  abort : τ → Except StoreFault τ

def makeBufferedStorage (store : KVStore α σ) (listeners : Listeners α σ) :
    BufferedStorage α (Buffer α σ) where
  kvStore :=
    { has := Buffer.has store
      get := Buffer.get store listeners
      getNextKey := Buffer.getNextKey store
      set := Buffer.set listeners
      delete := Buffer.delete listeners
      fuel := fun b => makeKVStoreFromMap.fuel b.additions + store.fuel b.store }
  commit := Buffer.commit store listeners
  abort := Buffer.abort listeners

/-- The buffer, over contents that are committed, shows the contents that are pending. -/
structure Buffered (v : View α σ) (b : Buffer α σ) (pending committed : Contents α) : Prop where
  additions : b.additions.Coherent
  disjoint : ∀ key ∈ b.deletions, b.additions.map.has key = false
  store : v.Shows b.store committed
  lookup : ∀ key, pending.lookup key =
    if b.additions.map.has key then b.additions.map.lookup key
    else if key ∈ b.deletions then none
    else committed.lookup key

/-- The callbacks do not change what the buffer shows. -/
structure Listeners.Neutral (listeners : Listeners α σ) (v : View α σ) : Prop where
  onGet : ∀ key b p c, Buffered v b p c → Buffered v (listeners.onGet key (p.lookup key).join b) p c
  onPendingSet : ∀ key value b p c, Buffered v b p c →
    Buffered v (listeners.onPendingSet key value b) p c
  onPendingDelete : ∀ key b p c, Buffered v b p c → Buffered v (listeners.onPendingDelete key b) p c
  onCommit : ∀ b p c, Buffered v b p c → Buffered v (listeners.onCommit b) p c
  onAbort : ∀ b p c, Buffered v b p c → Buffered v (listeners.onAbort b) p c

theorem neutral_default (v : View α σ) : ({} : Listeners α σ).Neutral v where
  onGet _ _ _ _ h := h
  onPendingSet _ _ _ _ _ h := h
  onPendingDelete _ _ _ _ h := h
  onCommit _ _ _ h := h
  onAbort _ _ _ h := h

namespace Buffered

variable {store : KVStore α σ} {listeners : Listeners α σ} {v : View α σ} {b : Buffer α σ}
  {p c : Contents α}

theorem start {s : σ} (h : v.Shows s c) : Buffered v { store := s } c c where
  additions := ⟨nofun, nofun⟩
  disjoint := nofun
  store := h
  lookup _ := rfl

theorem has (h : Buffered v b p c) (hstore : store.Implements v) (key : Key) :
    (b.has store key).1 = (p.lookup key).isSome ∧ Buffered v (b.has store key).2 p c := by
  obtain ⟨hanswer, hshows⟩ := hstore.has key b.store c h.store
  rw [h.lookup key]
  unfold Buffer.has MapStore.has
  dsimp only
  split
  case isTrue hadded => exact ⟨hadded.symm, h⟩
  case isFalse =>
    split
    case isTrue => exact ⟨rfl, h⟩
    case isFalse => exact ⟨hanswer, h.additions, h.disjoint, hshows, h.lookup⟩

theorem get (h : Buffered v b p c) (hstore : store.Implements v) (hlisteners : listeners.Neutral v)
    (key : Key) : (b.get store listeners key).1 = (p.lookup key).join ∧
      Buffered v (b.get store listeners key).2 p c := by
  obtain ⟨hanswer, hshows⟩ := hstore.get key b.store c h.store
  have hlookup := h.lookup key
  unfold Buffer.get MapStore.has MapStore.get
  dsimp only
  split at hlookup
  case isTrue hadded =>
    rw [if_pos hadded, hlookup]
    exact ⟨rfl, h⟩
  case isFalse hadded =>
    rw [if_neg hadded]
    split at hlookup
    case isTrue hdeleted =>
      rw [if_pos hdeleted, hlookup]
      exact ⟨rfl, h⟩
    case isFalse hdeleted =>
      rw [if_neg hdeleted, hanswer, ← hlookup]
      refine ⟨rfl, hlisteners.onGet key _ p c ?_⟩
      exact ⟨h.additions, h.disjoint, hshows, h.lookup⟩

theorem set (h : Buffered v b p c) (hlisteners : listeners.Neutral v) (key : Key)
    (value : Option α) : Buffered v (b.set listeners key value) (p.insert key value) c := by
  apply hlisteners.onPendingSet
  constructor
  case additions => exact (MapStore.set_spec h.additions key value).1
  case disjoint =>
    intro key' hmem
    obtain ⟨hdeleted, hne⟩ := List.mem_filter.mp hmem
    have hold := h.disjoint key' hdeleted
    unfold Table.has at hold ⊢
    rw [MapStore.map_set, Table.lookup_insert, if_neg (of_decide_eq_true hne)]
    exact hold
  case store => exact h.store
  case lookup =>
    intro key'
    unfold Table.has
    rw [MapStore.map_set, Table.lookup_insert, lookup_insert]
    by_cases heq : key' = key
    · rw [if_pos heq, if_pos heq]
      rfl
    · have hfilter : key' ∈ b.deletions.filter (· ≠ key) ↔ key' ∈ b.deletions := by
        rw [List.mem_filter]
        exact and_iff_left (decide_eq_true heq)
      rw [if_neg heq, if_neg heq, h.lookup key', if_congr hfilter rfl rfl]
      rfl

theorem delete (h : Buffered v b p c) (hlisteners : listeners.Neutral v) (key : Key) :
    Buffered v (b.delete listeners key) (p.erase key) c := by
  have hmem : ∀ key', key' ∈ (if key ∈ b.deletions then b.deletions else b.deletions ++ [key]) ↔
      key' ∈ b.deletions ∨ key' = key := by
    intro key'
    split
    case isTrue hdeleted =>
      constructor
      · exact .inl
      · rintro (hold | rfl)
        · exact hold
        · exact hdeleted
    case isFalse => rw [List.mem_append, List.mem_singleton]
  apply hlisteners.onPendingDelete
  constructor
  case additions => exact (MapStore.delete_spec h.additions key).1
  case disjoint =>
    intro key' hdeleted
    unfold Table.has
    rw [MapStore.map_delete, Table.lookup_erase]
    by_cases heq : key' = key
    · rw [if_pos heq]
      rfl
    · rw [if_neg heq]
      exact h.disjoint key' (((hmem key').mp hdeleted).resolve_right heq)
  case store => exact h.store
  case lookup =>
    intro key'
    unfold Table.has
    rw [MapStore.map_delete, Table.lookup_erase, lookup_erase]
    by_cases heq : key' = key
    · rw [if_pos heq, if_pos heq, if_pos ((hmem key').mpr (.inr heq))]
      rfl
    · have hdeleted := (hmem key').trans (or_iff_left heq)
      rw [if_neg heq, if_neg heq, h.lookup key', if_congr hdeleted rfl rfl]
      rfl

theorem mem_keys (h : Buffered v b p c) (key : Key) : key ∈ p.keys ↔
    key ∈ b.additions.contents.keys ∨ (key ∉ b.deletions ∧ key ∈ c.keys) := by
  have hlookup := h.lookup key
  rw [mem_keys_iff, hlookup, MapStore.mem_keys_contents, mem_keys_iff]
  by_cases hadded : b.additions.map.has key = true
  · rw [if_pos hadded]
    exact iff_of_true hadded (.inl hadded)
  · rw [if_neg hadded]
    by_cases hdeleted : key ∈ b.deletions
    · rw [if_pos hdeleted]
      exact iff_of_false Bool.false_ne_true (by simp [hadded, hdeleted])
    · rw [if_neg hdeleted]
      simp [hadded, hdeleted]

theorem skipDeleted_spec (h : Buffered v b p c) (hstore : store.Iterates v) (previousKey : Key)
    (n : Nat) (key : Key) (s : σ) (hkey : previousKey ≤ key) (hshows : v.Shows s c)
    (hskipped : ∀ k ∈ c.keys, previousKey < k → k ≤ key → k ∈ b.deletions)
    (hn : (after c.keys key).length < n) :
    let answer := Buffer.skipDeleted store b.deletions (next b.additions.contents.keys previousKey) n
      (next c.keys key) s
    answer.1 = .ok (next p.keys previousKey) ∧ v.Shows answer.2 c := by
  let a := b.additions.contents.keys
  have hbuffered := isNext_next a previousKey
  have hadded : ∀ k ∈ a, k ∈ p.keys := fun k hk => (h.mem_keys k).mpr (.inl hk)
  induction n generalizing key s with
  | zero => exact absurd hn (Nat.not_lt_zero _)
  | succ n ih =>
    -- What is pending after the previous key was added, or is still ahead in the store.
    have hahead : ∀ k ∈ p.keys, previousKey < k → k ∈ a ∨ (k ∈ c.keys ∧ key < k) := by
      intro k hk hlt
      rcases (h.mem_keys k).mp hk with hadded | ⟨hkept, hin⟩
      · exact .inl hadded
      · exact .inr ⟨hin, lt_of_not_ge fun hle => hkept (hskipped k hin hlt hle)⟩
    have hstored := isNext_next c.keys key
    cases hnext : next c.keys key with
    | none =>
      rw [hnext] at hstored
      refine ⟨congrArg Except.ok (IsNext.next_eq ?_).symm, hshows⟩
      apply hbuffered.of_added hahead hadded
      exact fun k hk hlt => absurd hlt (not_lt_of_ge (hstored k hk))
    | some nextKey =>
      rw [hnext] at hstored
      obtain ⟨hin, hlt, hmin⟩ := hstored
      unfold Buffer.skipDeleted
      split
      case isTrue hany =>
        refine ⟨congrArg Except.ok (IsNext.next_eq ?_).symm, hshows⟩
        apply hbuffered.of_added hahead hadded
        intro k hk hlt'
        obtain ⟨buffered, heq, hle⟩ := (Option.any_eq_true _ _).mp hany
        have hfirst := compareByCodePoints_le_zero.mp (of_decide_eq_true hle)
        exact ⟨buffered, heq, hfirst.trans (hmin k hk hlt')⟩
      case isFalse hnone =>
        split
        case isTrue hkept =>
          refine ⟨congrArg Except.ok (IsNext.next_eq ?_).symm, hshows⟩
          apply IsNext.of_ahead hahead ((h.mem_keys nextKey).mpr (.inr ⟨hkept, hin⟩))
            (hkey.trans_lt hlt) ⟨hin, hlt, hmin⟩
          intro k hk hlt'
          cases hfirst : next a previousKey with
          | none =>
            rw [hfirst] at hbuffered
            exact absurd hlt' (not_lt_of_ge (hbuffered k hk))
          | some buffered =>
            rw [hfirst] at hbuffered
            have hgt : nextKey < buffered := by
              apply lt_of_not_ge
              intro hle
              apply hnone
              rw [hfirst]
              exact decide_eq_true (compareByCodePoints_le_zero.mpr hle)
            exact hgt.le.trans (hbuffered.2.2 k hk hlt')
        case isFalse hdeleted =>
          obtain ⟨hanswer, hshows'⟩ := hstore.getNextKey nextKey s c hshows
          generalize store.getNextKey nextKey s = answer at hanswer hshows' ⊢
          obtain ⟨result, s'⟩ := answer
          dsimp only at hanswer hshows' ⊢
          subst hanswer
          have hrest : (after c.keys nextKey).length < n := by
            obtain ⟨first, rest, hafter⟩ : ∃ first rest, after c.keys key = first :: rest := by
              apply List.exists_cons_of_ne_nil
              intro hnil
              rw [next_of_after_nil hnil] at hnext
              cases hnext
            obtain ⟨hfirst, hafter'⟩ := next_of_after_cons hafter
            cases hnext.symm.trans hfirst
            rw [hafter] at hn
            rw [hafter']
            exact Nat.lt_of_succ_lt_succ hn
          apply ih nextKey s' (hkey.trans hlt.le) hshows' _ hrest
          intro k hk hlt' hle
          by_cases hold : k ≤ key
          · exact hskipped k hk hlt' hold
          · have heq : k = nextKey := le_antisymm hle (hmin k hk (lt_of_not_ge hold))
            rw [heq]
            exact not_not.mp hdeleted

theorem getNextKey (h : Buffered v b p c) (hstore : store.Iterates v) (previousKey : Key) :
    (b.getNextKey store previousKey).1 = .ok (next p.keys previousKey) ∧
      Buffered v (b.getNextKey store previousKey).2 p c := by
  obtain ⟨hbuffered, hcoherent, hcontents⟩ := MapStore.getNextKey_spec h.additions previousKey
  obtain ⟨hanswer, hshows⟩ := hstore.getNextKey previousKey b.store c h.store
  have hmap : (b.additions.getNextKey previousKey).2.map = b.additions.map := rfl
  unfold Buffer.getNextKey
  generalize b.additions.getNextKey previousKey = found at hbuffered hcoherent hmap ⊢
  obtain ⟨bufferedNextKey, additions⟩ := found
  generalize store.getNextKey previousKey b.store = answer at hanswer hshows ⊢
  obtain ⟨result, s⟩ := answer
  dsimp only at hbuffered hcoherent hmap hanswer hshows ⊢
  subst hbuffered
  subst hanswer
  have hfuel := (length_after_le c.keys previousKey).trans_lt (hstore.fuel s c hshows)
  have hloop := h.skipDeleted_spec hstore previousKey (store.fuel s + 1) previousKey s (le_refl _)
    hshows (fun k _ hlt hle => absurd hlt (not_lt_of_ge hle)) (Nat.lt_succ_of_lt hfuel)
  refine ⟨hloop.1, hcoherent, ?_, hloop.2, ?_⟩
  · rw [hmap]
    exact h.disjoint
  · rw [hmap]
    exact h.lookup

theorem clear_spec {m : MapStore α} (h : m.Coherent) :
    ∃ m', Buffer.clear m = .ok m' ∧ m'.Coherent ∧ ∀ key, m'.map.has key = false := by
  let I (ks : List Key) (m : MapStore α) : Prop :=
    m.Coherent ∧ ks.Nodup ∧ ∀ key, key ∈ ks ↔ m.map.has key = true
  have hvisit : ∀ key ks (m : MapStore α), I (key :: ks) m → I ks (m.delete key) := by
    intro key ks m hI
    obtain ⟨hcoherent, hnodup, hmem⟩ := hI
    obtain ⟨hnot, hnodup'⟩ := List.nodup_cons.mp hnodup
    refine ⟨(MapStore.delete_spec hcoherent key).1, hnodup', ?_⟩
    intro key'
    rw [MapStore.map_delete, Table.has_erase_iff, ← hmem, List.mem_cons]
    constructor
    · intro hin
      exact ⟨fun heq => hnot (heq ▸ hin), .inr hin⟩
    · rintro ⟨hne, heq | hin⟩
      · exact absurd heq hne
      · exact hin
  have hconsumes : Consumes MapStore.has (makeKVStoreFromMap.getNextKey) MapStore.delete
      (fun m : MapStore α => m.contents.keys) I := by
    constructor
    case hasKey =>
      intro key ks m hI
      refine ⟨?_, rfl, hI⟩
      show m.map.has key = _
      rw [Bool.eq_iff_iff, decide_eq_true_iff, MapStore.mem_keys_contents]
    case nextKey =>
      intro key ks m hI
      obtain ⟨hnext, hcoherent, hcontents⟩ := MapStore.getNextKey_spec hI.1 key
      exact ⟨congrArg Except.ok hnext, congrArg _ hcontents, hcoherent, hI.2⟩
    case visited => exact hvisit
    case kept =>
      intro key ks m _ key' hlt
      rw [MapStore.mem_keys_contents, MapStore.mem_keys_contents, MapStore.map_delete,
        Table.has_erase_iff]
      exact and_iff_right hlt.ne'
  have hfuel := makeKVStoreFromMap_iterates.fuel m m.contents ⟨h, rfl⟩
  obtain ⟨m', hrun, hcoherent, -, hmem⟩ := forEachKey_spec hconsumes hfuel
    ⟨h, Finset.sort_nodup _ _, fun key => by rw [Finset.mem_sort, MapStore.mem_keys_contents]⟩
  refine ⟨m', hrun, hcoherent, ?_⟩
  intro key
  rw [← Bool.not_eq_true, ← hmem key]
  exact List.not_mem_nil

theorem abort (h : Buffered v b p c) (hlisteners : listeners.Neutral v) :
    ∃ b', b.abort listeners = .ok b' ∧ Buffered v b' c c := by
  obtain ⟨additions, hrun, hcoherent, hempty⟩ := clear_spec h.additions
  refine ⟨listeners.onAbort { b with additions, deletions := [] }, ?_, ?_⟩
  · unfold Buffer.abort
    rw [hrun]
    rfl
  · apply hlisteners.onAbort
    refine ⟨hcoherent, nofun, h.store, ?_⟩
    intro key
    rw [hempty key]
    rfl

/-- The additions are written one by one, and those ahead are still to be written. -/
structure Committing (v : View α σ) (b : Buffer α σ) (c : Contents α) (ks : List Key)
    (b' : Buffer α σ) : Prop where
  additions : b'.additions.Coherent
  map : b'.additions.map = b.additions.map
  deletions : b'.deletions = b.deletions
  nodup : ks.Nodup
  ahead : ∀ key ∈ ks, b.additions.map.has key = true
  store : ∃ c', v.Shows b'.store c' ∧ ∀ key, c'.lookup key =
    if b.additions.map.has key ∧ key ∉ ks then b.additions.map.lookup key else c.lookup key

theorem committing_visit (hstore : store.Implements v) {key : Key} {ks : List Key}
    {b' : Buffer α σ} (h : Committing v b c (key :: ks) b') :
    Committing v b c ks (b'.commitAddition store key) := by
  obtain ⟨c', hshows, hlookup⟩ := h.store
  obtain ⟨hnot, hnodup⟩ := List.nodup_cons.mp h.nodup
  have hhas := h.ahead key List.mem_cons_self
  obtain ⟨value, hvalue⟩ := Option.isSome_iff_exists.mp hhas
  refine ⟨h.additions, h.map, h.deletions, hnodup, fun k hk => h.ahead k (List.mem_cons_of_mem _ hk),
    c'.insert key value, ?_, ?_⟩
  · have hset := hstore.set key value b'.store c' hshows
    have heq : (b'.additions.map.lookup key).join = value := by
      rw [h.map, hvalue]
      rfl
    unfold Buffer.commitAddition MapStore.get
    dsimp only
    rw [heq]
    exact hset
  · intro key'
    rw [lookup_insert, hlookup]
    by_cases heq : key' = key
    · subst heq
      rw [if_pos rfl, if_pos ⟨hhas, hnot⟩, hvalue]
    · have hmem : key' ∉ key :: ks ↔ key' ∉ ks := by
        rw [List.mem_cons, not_or]
        exact and_iff_right heq
      rw [if_neg heq, if_congr (and_congr_right fun _ => hmem) rfl rfl]

theorem foldl_delete_shows (hstore : store.Implements v) (keys : List Key) {s : σ} {c : Contents α}
    (h : v.Shows s c) : v.Shows (keys.foldl (fun s key => store.delete key s) s)
      (keys.foldl (fun c key => c.erase key) c) := by
  induction keys generalizing s c with
  | nil => exact h
  | cons key keys ih => exact ih (hstore.delete key s c h)

theorem commit (h : Buffered v b p c) (hstore : store.Implements v)
    (hlisteners : listeners.Neutral v) :
    ∃ b', b.commit store listeners = .ok b' ∧ Buffered v b' p p := by
  have hconsumes : Consumes (fun key => Buffer.onAdditions (MapStore.has key))
      (fun key => Buffer.onAdditions (makeKVStoreFromMap.getNextKey key))
      (Buffer.commitAddition store) (fun b : Buffer α σ => b.additions.contents.keys)
      (Committing v b c) := by
    constructor
    case hasKey =>
      intro key ks b' hI
      refine ⟨?_, rfl, hI⟩
      show b'.additions.map.has key = _
      rw [Bool.eq_iff_iff, decide_eq_true_iff, MapStore.mem_keys_contents]
    case nextKey =>
      intro key ks b' hI
      obtain ⟨hnext, hcoherent, hcontents⟩ := MapStore.getNextKey_spec hI.additions key
      exact ⟨congrArg Except.ok hnext, congrArg _ hcontents,
        { hI with additions := hcoherent }⟩
    case visited => exact fun key ks b' => committing_visit hstore
    case kept => exact fun key ks b' _ key' _ => Iff.rfl
  have hfuel := makeKVStoreFromMap_iterates.fuel b.additions b.additions.contents ⟨h.additions, rfl⟩
  have hall : ∀ key, key ∈ b.additions.contents.keys.sort (· ≤ ·) ↔ b.additions.map.has key := by
    intro key
    rw [Finset.mem_sort, MapStore.mem_keys_contents]
  obtain ⟨b₁, hrun, hcommitted⟩ := forEachKey_spec hconsumes hfuel
    ⟨h.additions, rfl, rfl, Finset.sort_nodup _ _, fun key hk => (hall key).mp hk, c, h.store, by
      intro key
      rw [if_neg]
      rintro ⟨hhas, hnot⟩
      exact hnot ((hall key).mpr hhas)⟩
  obtain ⟨c', hshows, hlookup⟩ := hcommitted.store
  obtain ⟨additions, hclear, hcoherent, hempty⟩ := clear_spec hcommitted.additions
  have hfinal := foldl_delete_shows hstore b₁.deletions hshows
  have hpending : b₁.deletions.foldl (fun c key => c.erase key) c' = p := by
    apply Finmap.ext_lookup
    intro key
    rw [lookup_foldl_erase, hcommitted.deletions, h.lookup key, hlookup]
    cases hhas : b.additions.map.has key with
    | true =>
      have hnot : key ∉ b.deletions := by
        intro hdeleted
        rw [h.disjoint key hdeleted] at hhas
        cases hhas
      rw [if_neg hnot, if_pos ⟨rfl, List.not_mem_nil⟩, if_pos rfl]
    | false =>
      have hnone : ¬ (false = true ∧ key ∉ ([] : List Key)) := fun hfalse => nomatch hfalse.1
      rw [if_neg hnone, if_neg Bool.false_ne_true]
  rw [hpending] at hfinal
  refine ⟨listeners.onCommit ⟨additions, [], b₁.deletions.foldl (fun s key => store.delete key s)
    b₁.store⟩, ?_, ?_⟩
  · unfold Buffer.commit
    rw [hrun]
    dsimp only [bind, Except.bind]
    rw [hclear]
    rfl
  · apply hlisteners.onCommit
    refine ⟨hcoherent, nofun, hfinal, ?_⟩
    intro key
    rw [hempty key]
    rfl

end Buffered

section Runs

/-- A plain ordered map with the operations applied to it, and what was committed last. -/
structure PlainMap (α : Type) where
  pending : Contents α
  committed : Contents α

inductive StorageOp (α : Type) where
  | has (key : Key)
  | get (key : Key)
  | set (key : Key) (value : Option α)
  | delete (key : Key)
  | getNextKey (previousKey : Key)
  | commit
  | abort

inductive Answer (α : Type) where
  | has (present : Bool)
  | get (value : Option α)
  | getNextKey (nextKey : Option Key)
  | nothing

def PlainMap.step (m : PlainMap α) : StorageOp α → Answer α × PlainMap α
  | .has key => (.has (m.pending.lookup key).isSome, m)
  | .get key => (.get (m.pending.lookup key).join, m)
  | .set key value => (.nothing, { m with pending := m.pending.insert key value })
  | .delete key => (.nothing, { m with pending := m.pending.erase key })
  | .getNextKey previousKey => (.getNextKey (next m.pending.keys previousKey), m)
  | .commit => (.nothing, { m with committed := m.pending })
  | .abort => (.nothing, { m with pending := m.committed })

def PlainMap.run : List (StorageOp α) → PlainMap α → List (Answer α) × PlainMap α
  | [], m => ([], m)
  | op :: ops, m =>
    let (answer, m) := m.step op
    let (answers, m) := PlainMap.run ops m
    (answer :: answers, m)

variable {τ : Type}

def BufferedStorage.step (storage : BufferedStorage α τ) (t : τ) :
    StorageOp α → Except StoreFault (Answer α × τ)
  | .has key =>
    let (present, t) := storage.kvStore.has key t
    .ok (.has present, t)
  | .get key =>
    let (value, t) := storage.kvStore.get key t
    .ok (.get value, t)
  | .set key value => .ok (.nothing, storage.kvStore.set key value t)
  | .delete key => .ok (.nothing, storage.kvStore.delete key t)
  | .getNextKey previousKey =>
    match storage.kvStore.getNextKey previousKey t with
    | (.error fault, _) => .error fault
    | (.ok nextKey, t) => .ok (.getNextKey nextKey, t)
  | .commit => (fun t => (.nothing, t)) <$> storage.commit t
  | .abort => (fun t => (.nothing, t)) <$> storage.abort t

def BufferedStorage.run (storage : BufferedStorage α τ) :
    List (StorageOp α) → τ → Except StoreFault (List (Answer α) × τ)
  | [], t => .ok ([], t)
  | op :: ops, t => do
    let (answer, t) ← storage.step t op
    let (answers, t) ← storage.run ops t
    return (answer :: answers, t)

/-- Does the operation ask for a next key? -/
def StorageOp.isNext : StorageOp α → Bool
  | .getNextKey _ => true
  | _ => false

variable {store : KVStore α σ} {listeners : Listeners α σ} {v : View α σ}

theorem step_refines (hstore : store.Implements v) (hlisteners : listeners.Neutral v)
    {b : Buffer α σ} {m : PlainMap α} (h : Buffered v b m.pending m.committed) (op : StorageOp α)
    (hnext : op.isNext = true → store.Iterates v) :
    ∃ b', (makeBufferedStorage store listeners).step b op = .ok ((m.step op).1, b') ∧
      Buffered v b' (m.step op).2.pending (m.step op).2.committed := by
  cases op with
  | has key =>
    obtain ⟨hanswer, hb⟩ := h.has hstore key
    exact ⟨_, congrArg (fun x => Except.ok (Answer.has x, _)) hanswer, hb⟩
  | get key =>
    obtain ⟨hanswer, hb⟩ := h.get hstore hlisteners key
    exact ⟨_, congrArg (fun x => Except.ok (Answer.get x, _)) hanswer, hb⟩
  | set key value => exact ⟨_, rfl, h.set hlisteners key value⟩
  | delete key => exact ⟨_, rfl, h.delete hlisteners key⟩
  | getNextKey previousKey =>
    obtain ⟨hanswer, hb⟩ := h.getNextKey (hnext rfl) previousKey
    refine ⟨_, ?_, hb⟩
    unfold BufferedStorage.step makeBufferedStorage
    dsimp only
    generalize b.getNextKey store previousKey = answer at hanswer ⊢
    obtain ⟨result, b'⟩ := answer
    dsimp only at hanswer ⊢
    subst hanswer
    rfl
  | commit =>
    obtain ⟨b', hrun, hb⟩ := h.commit hstore hlisteners
    exact ⟨b', congrArg (Functor.map _) hrun, hb⟩
  | abort =>
    obtain ⟨b', hrun, hb⟩ := h.abort hlisteners
    exact ⟨b', congrArg (Functor.map _) hrun, hb⟩

theorem run_refines (hstore : store.Implements v) (hlisteners : listeners.Neutral v)
    (ops : List (StorageOp α)) (hnext : ∀ op ∈ ops, op.isNext = true → store.Iterates v)
    {b : Buffer α σ} {m : PlainMap α} (h : Buffered v b m.pending m.committed) :
    ∃ b', (makeBufferedStorage store listeners).run ops b = .ok ((m.run ops).1, b') ∧
      Buffered v b' (m.run ops).2.pending (m.run ops).2.committed := by
  induction ops generalizing b m with
  | nil => exact ⟨b, rfl, h⟩
  | cons op ops ih =>
    have hop := hnext op List.mem_cons_self
    obtain ⟨b₁, hstep, h₁⟩ := step_refines hstore hlisteners h op hop
    obtain ⟨b₂, hrun, h₂⟩ := ih (fun op' hmem => hnext op' (List.mem_cons_of_mem _ hmem)) h₁
    refine ⟨b₂, ?_, h₂⟩
    unfold BufferedStorage.run
    rw [hstep]
    dsimp only [bind, Except.bind]
    rw [hrun]
    rfl

end Runs

section Nested

/-- The contents that a buffer shows. -/
def pendingContents (v : View α σ) (b : Buffer α σ) : Contents α :=
  b.additions.contents ∪ b.deletions.foldl (fun c key => c.erase key) (v.content b.store)

/-- A buffer is read as its pending contents, over contents that are committed. -/
def bufferView (v : View α σ) (committed : Contents α) : View α (Buffer α σ) where
  content := pendingContents v
  ok b := Buffered v b (pendingContents v b) committed

variable {store : KVStore α σ} {listeners : Listeners α σ} {v : View α σ} {b : Buffer α σ}
  {p c : Contents α}

theorem Buffered.pendingContents_eq (h : Buffered v b p c) : pendingContents v b = p := by
  apply Finmap.ext_lookup
  intro key
  unfold pendingContents
  rw [h.lookup key]
  split
  case isTrue hadded =>
    have hmem : key ∈ b.additions.contents := Finmap.mem_keys.mp (MapStore.mem_keys_contents.mpr hadded)
    rw [Finmap.lookup_union_left hmem, MapStore.lookup_contents]
  case isFalse hadded =>
    have hnot : key ∉ b.additions.contents :=
      fun hmem => hadded (MapStore.mem_keys_contents.mp (Finmap.mem_keys.mpr hmem))
    rw [Finmap.lookup_union_right hnot, lookup_foldl_erase, h.store.content]

theorem bufferView_shows : (bufferView v c).Shows b p ↔ Buffered v b p c := by
  constructor
  · rintro ⟨hok, hcontent⟩
    have hpending : pendingContents v b = p := hcontent
    exact hpending ▸ hok
  · intro h
    have hpending := h.pendingContents_eq
    exact ⟨show Buffered v b (pendingContents v b) c from hpending.symm ▸ h, hpending⟩

theorem makeBufferedStorage_implements (hstore : store.Implements v)
    (hlisteners : listeners.Neutral v) :
    (makeBufferedStorage store listeners).kvStore.Implements (bufferView v c) := by
  constructor
  case has =>
    intro key b p h
    obtain ⟨hanswer, hb⟩ := (bufferView_shows.mp h).has hstore key
    exact ⟨hanswer, bufferView_shows.mpr hb⟩
  case get =>
    intro key b p h
    obtain ⟨hanswer, hb⟩ := (bufferView_shows.mp h).get hstore hlisteners key
    exact ⟨hanswer, bufferView_shows.mpr hb⟩
  case set =>
    exact fun key value b p h => bufferView_shows.mpr ((bufferView_shows.mp h).set hlisteners key value)
  case delete =>
    exact fun key b p h => bufferView_shows.mpr ((bufferView_shows.mp h).delete hlisteners key)

theorem makeBufferedStorage_iterates (hstore : store.Iterates v) :
    (makeBufferedStorage store listeners).kvStore.Iterates (bufferView v c) := by
  constructor
  case getNextKey =>
    intro key b p h
    obtain ⟨hanswer, hb⟩ := (bufferView_shows.mp h).getNextKey hstore key
    exact ⟨hanswer, bufferView_shows.mpr hb⟩
  case fuel =>
    intro b p h
    have hb := bufferView_shows.mp h
    have hadditions := makeKVStoreFromMap_iterates.fuel b.additions b.additions.contents
      ⟨hb.additions, rfl⟩
    have hcommitted := hstore.fuel b.store c hb.store
    have hsubset : p.keys ⊆ b.additions.contents.keys ∪ c.keys := by
      intro key hkey
      rw [Finset.mem_union]
      exact ((hb.mem_keys key).mp hkey).imp id And.right
    have hcard := (Finset.card_le_card hsubset).trans (Finset.card_union_le _ _)
    show p.keys.card < makeKVStoreFromMap.fuel b.additions + store.fuel b.store
    omega

end Nested

end AgoricSdk.Storage
