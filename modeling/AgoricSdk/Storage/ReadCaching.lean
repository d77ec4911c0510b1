import AgoricSdk.Storage.BufferedStorage

/-!
Buffered storage with a cache of what was read from the store it wraps. Every
value read becomes a pending write, for callers that change the value they got.
-/

namespace AgoricSdk.Storage

open OrderedMap

variable {α σ : Type}

/-- What the cache knows of a key: that it has no value, that its value is `undefined`, or its
value. -/
inductive Cached (α : Type) where
  | deleted
  | undef
  | value (a : α)

structure CachingState (α σ : Type) where
  cache : Table Key (Cached α) := ∅
  store : σ

namespace Cached

def ofValue : Option α → Cached α
  | none => undef
  | some a => value a

/-- What the store has for the key. -/
def entry : Cached α → Option (Option α)
  | deleted => none
  | undef => some none
  | value a => some (some a)

theorem entry_ofValue (value : Option α) : (ofValue value).entry = some value := by
  cases value <;> rfl

end Cached

namespace CachingState

variable (store : KVStore α σ)

def resetCache (s : CachingState α σ) : CachingState α σ := { s with cache := ∅ }

def has (key : Key) (s : CachingState α σ) : Bool × CachingState α σ :=
  match s.cache.lookup key with
  | some .deleted => (false, s)
  | some _ => (true, s)
  | none =>
    let (ret, inner) := store.has key s.store
    let cache := if ret then s.cache else s.cache.insert key .deleted
    (ret, { cache, store := inner })

def get (key : Key) (s : CachingState α σ) : Option α × CachingState α σ :=
  match s.cache.lookup key with
  | some (.value a) => (some a, s)
  | some _ => (none, s)
  | none =>
    match store.get key s.store with
    | (some a, inner) => (some a, { cache := s.cache.insert key (.value a), store := inner })
    | (none, inner) =>
      let (present, inner) := store.has key inner
      let cached := if present then .undef else .deleted
      (none, { cache := s.cache.insert key cached, store := inner })

def set (key : Key) (value : Option α) (s : CachingState α σ) : CachingState α σ where
  cache := s.cache.insert key (.ofValue value)
  store := store.set key value s.store

def delete (key : Key) (s : CachingState α σ) : CachingState α σ where
  cache := s.cache.insert key .deleted
  store := store.delete key s.store

end CachingState

/-- The store that `makeReadCachingStorage` buffers. -/
def cachingStore (store : KVStore α σ) : KVStore α (CachingState α σ) where
  has := CachingState.has store
  get := CachingState.get store
  getNextKey _ s := (.error .notImplemented, s)
  set := CachingState.set store
  delete := CachingState.delete store
  fuel s := store.fuel s.store

/-- Retrieved values are written back, and the cache lasts until the next commit or abort. -/
def cachingListeners : Listeners α (CachingState α σ) where
  onGet key value b :=
    match value with
    | none => b
    | some a => b.set {} key (some a)
  onCommit b := { b with store := b.store.resetCache }
  onAbort b := { b with store := b.store.resetCache }

def makeReadCachingStorage (store : KVStore α σ) :
    BufferedStorage α (Buffer α (CachingState α σ)) :=
  makeBufferedStorage (cachingStore store) cachingListeners

/-- What the cache knows is what the store has. -/
def cachingView (v : View α σ) : View α (CachingState α σ) where
  content s := v.content s.store
  ok s := v.ok s.store ∧ ∀ key cached, s.cache.lookup key = some cached →
    (v.content s.store).lookup key = cached.entry

variable {store : KVStore α σ} {v : View α σ} {c : Contents α}

theorem cachingView_shows_insert {s : CachingState α σ} {c' : Contents α} {inner : σ}
    (h : (cachingView v).Shows s c) (hinner : v.Shows inner c') (key : Key) (cached : Cached α)
    (hkey : c'.lookup key = cached.entry)
    (hkept : ∀ key', key' ≠ key → c'.lookup key' = c.lookup key') :
    (cachingView v).Shows ⟨s.cache.insert key cached, inner⟩ c' := by
  refine ⟨⟨hinner.ok, ?_⟩, hinner.content⟩
  intro key' cached' hlookup
  have hcontent : v.content s.store = c := h.content
  rw [Table.lookup_insert] at hlookup
  show (v.content inner).lookup key' = _
  rw [hinner.content]
  split at hlookup
  case isTrue heq =>
    cases hlookup
    rw [heq, hkey]
  case isFalse hne => rw [hkept key' hne, ← hcontent, h.ok.2 key' cached' hlookup]

theorem cachingView_shows_inner {s : CachingState α σ} {inner : σ} (h : (cachingView v).Shows s c)
    (hinner : v.Shows inner c) : (cachingView v).Shows ⟨s.cache, inner⟩ c := by
  have hcontent : v.content s.store = c := h.content
  refine ⟨⟨hinner.ok, ?_⟩, hinner.content⟩
  intro key cached hlookup
  show (v.content inner).lookup key = _
  rw [hinner.content, ← hcontent]
  exact h.ok.2 key cached hlookup

theorem caching_has (hstore : store.Implements v) (key : Key) {s : CachingState α σ}
    (h : (cachingView v).Shows s c) : (s.has store key).1 = (c.lookup key).isSome ∧
      (cachingView v).Shows (s.has store key).2 c := by
  have hinner : v.Shows s.store c := ⟨h.ok.1, h.content⟩
  obtain ⟨hanswer, hshows⟩ := hstore.has key s.store c hinner
  unfold CachingState.has
  cases hcached : s.cache.lookup key with
  | some cached =>
    have hentry := h.ok.2 key cached hcached
    rw [hinner.content] at hentry
    rw [hentry]
    cases cached <;> exact ⟨rfl, h⟩
  | none =>
    generalize store.has key s.store = answer at hanswer hshows ⊢
    obtain ⟨ret, inner⟩ := answer
    dsimp only at hanswer hshows ⊢
    refine ⟨hanswer, ?_⟩
    split
    case isTrue => exact cachingView_shows_inner h hshows
    case isFalse hnone =>
      apply cachingView_shows_insert h hshows
      · rw [hanswer, Bool.not_eq_true, Option.isSome_eq_false_iff, Option.isNone_iff_eq_none] at hnone
        exact hnone
      · exact fun _ _ => rfl

theorem caching_get (hstore : store.Implements v) (key : Key) {s : CachingState α σ}
    (h : (cachingView v).Shows s c) : (s.get store key).1 = (c.lookup key).join ∧
      (cachingView v).Shows (s.get store key).2 c := by
  have hinner : v.Shows s.store c := ⟨h.ok.1, h.content⟩
  obtain ⟨hanswer, hshows⟩ := hstore.get key s.store c hinner
  unfold CachingState.get
  cases hcached : s.cache.lookup key with
  | some cached =>
    have hentry := h.ok.2 key cached hcached
    rw [hinner.content] at hentry
    rw [hentry]
    cases cached <;> exact ⟨rfl, h⟩
  | none =>
    generalize store.get key s.store = answer at hanswer hshows ⊢
    obtain ⟨value, inner⟩ := answer
    dsimp only at hanswer hshows
    cases value with
    | some a =>
      refine ⟨hanswer, ?_⟩
      apply cachingView_shows_insert h hshows
      · exact Option.join_eq_some_iff.mp hanswer.symm
      · exact fun _ _ => rfl
    | none =>
      -- Only here the two ways to have no value are told apart, by another call.
      obtain ⟨hpresent, hshows'⟩ := hstore.has key inner c hshows
      refine ⟨hanswer, ?_⟩
      apply cachingView_shows_insert h hshows'
      · rw [hpresent]
        cases hlookup : c.lookup key with
        | none => rfl
        | some value =>
          rw [hlookup] at hanswer
          cases value with
          | none => rfl
          | some a => cases hanswer
      · exact fun _ _ => rfl

theorem cachingStore_implements (hstore : store.Implements v) :
    (cachingStore store).Implements (cachingView v) := by
  constructor
  case has => exact fun key s c h => caching_has hstore key h
  case get => exact fun key s c h => caching_get hstore key h
  case set =>
    intro key value s c h
    apply cachingView_shows_insert h (hstore.set key value s.store c ⟨h.ok.1, h.content⟩)
    · rw [lookup_insert, if_pos rfl, Cached.entry_ofValue]
    · intro key' hne
      rw [lookup_insert, if_neg hne]
  case delete =>
    intro key s c h
    apply cachingView_shows_insert h (hstore.delete key s.store c ⟨h.ok.1, h.content⟩)
    · rw [lookup_erase, if_pos rfl]
      rfl
    · intro key' hne
      rw [lookup_erase, if_neg hne]

theorem cachingListeners_neutral :
    (cachingListeners : Listeners α (CachingState α σ)).Neutral (cachingView v) := by
  have hreset : ∀ b : Buffer α (CachingState α σ), ∀ p c, Buffered (cachingView v) b p c →
      Buffered (cachingView v) { b with store := b.store.resetCache } p c :=
    fun b p c h => { h with store := ⟨⟨h.store.ok.1, nofun⟩, h.store.content⟩ }
  constructor
  case onGet =>
    intro key b p c h
    unfold cachingListeners
    dsimp only
    cases hvalue : (p.lookup key).join with
    | none => exact h
    | some a =>
      have hset := h.set (neutral_default _) key (some a)
      have hsame : p.insert key (some a) = p := by
        apply Finmap.ext_lookup
        intro key'
        rw [lookup_insert]
        split
        case isTrue heq => rw [heq, Option.join_eq_some_iff.mp hvalue]
        case isFalse => rfl
      rwa [hsame] at hset
  case onPendingSet => exact fun _ _ _ _ _ h => h
  case onPendingDelete => exact fun _ _ _ _ h => h
  case onCommit => exact hreset
  case onAbort => exact hreset

/-- Buffered storage is an atomic view of what it wraps: over any operations it answers as a plain
ordered map does, what it wraps holds what was committed last, and its keys are those of the map,
in order. Caching what is read makes no difference. -/
theorem bufferedStorage_atomic {listeners : Listeners α σ} (hstore : store.Implements v)
    (hiterates : store.Iterates v) (hlisteners : listeners.Neutral v) {s : σ} (h : v.Shows s c)
    (ops : List (StorageOp α)) :
    let map : PlainMap α := { pending := c, committed := c }
    let buffered := makeBufferedStorage store listeners
    (∃ b, buffered.run ops { store := s } = .ok ((map.run ops).1, b) ∧
      v.Shows b.store (map.run ops).2.committed ∧
      ∃ b', buffered.kvStore.keys b = .ok ((map.run ops).2.pending.keys.sort (· ≤ ·), b')) ∧
    ((∀ op ∈ ops, op.isNext = false) →
      ∃ b, (makeReadCachingStorage store).run ops { store := { store := s } } =
          .ok ((map.run ops).1, b) ∧
        v.Shows b.store.store (map.run ops).2.committed) := by
  intro map buffered
  constructor
  · obtain ⟨b, hrun, hb⟩ := run_refines hstore hlisteners ops (fun _ _ _ => hiterates)
      (m := map) (Buffered.start h)
    refine ⟨b, hrun, hb.store, ?_⟩
    obtain ⟨b', hkeys, -⟩ := KVStore.keys_eq (makeBufferedStorage_implements hstore hlisteners)
      (makeBufferedStorage_iterates hiterates) (bufferView_shows.mpr hb)
    exact ⟨b', hkeys⟩
  · intro hnext
    have hstart : (cachingView v).Shows { store := s } c := ⟨⟨h.ok, nofun⟩, h.content⟩
    obtain ⟨b, hrun, hb⟩ := run_refines (cachingStore_implements hstore) cachingListeners_neutral ops
      (fun op hmem htrue => nomatch (hnext op hmem).symm.trans htrue) (m := map)
      (Buffered.start hstart)
    exact ⟨b, hrun, hb.store.ok.1, hb.store.content⟩

/-- A surrogate pair comes after a code unit that is larger than both its halves. -/
theorem bufferedStorage_atomic_astral :
    let astral : Key := ⟨[0xD83D, 0xDE00]⟩
    let last : Key := ⟨[0xFFFD]⟩
    let ops : List (StorageOp Nat) := [.set astral (some 1), .set last none, .has last,
      .getNextKey emptyKey, .getNextKey last, .commit, .delete last, .abort, .get astral]
    ∃ b, (makeBufferedStorage makeKVStoreFromMap {}).run ops { store := {} } =
      .ok ([.nothing, .nothing, .has true, .getNextKey (some last), .getNextKey (some astral),
        .nothing, .nothing, .nothing, .get (some 1)], b) := by
  intro astral last ops
  obtain ⟨b, hrun, -⟩ := (bufferedStorage_atomic makeKVStoreFromMap_implements
    makeKVStoreFromMap_iterates (neutral_default mapView) (s := {}) ⟨⟨nofun, nofun⟩, rfl⟩ ops).1
  exact ⟨b, hrun⟩


end AgoricSdk.Storage
