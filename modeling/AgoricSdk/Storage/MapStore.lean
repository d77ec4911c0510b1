import AgoricSdk.Storage.KVStore

/-!
The store that is made from a map: `makeKVStoreFromMap`.
-/

namespace AgoricSdk.Storage

open OrderedMap

variable {α : Type}

structure MapStore (α : Type) where
  map : Table Key (Option α) := ∅
  sortedKeys : Option (List Key) := none
  /-- `priorKeyReturned` and `priorKeyIndex`, which are set and cleared together. -/
  prior : Option (Key × Nat) := none

namespace MapStore

def ensureSorted (m : MapStore α) : List Key :=
  m.sortedKeys.getD (m.map.keys.insertionSort fun a b => compareByCodePoints a b ≤ 0)

def clearSorted (m : MapStore α) : MapStore α := { m with sortedKeys := none, prior := none }

/-- `keys.at(index - 1)` -/
def atBefore (keys : List Key) (index : Nat) : Option Key :=
  if index = 0 then keys.getLast? else keys[index - 1]?

/-- The first key from `i` on that comes after `priorKey`, with its index. -/
def scan (priorKey : Key) : Nat → List Key → Option (Key × Nat)
  | _, [] => none
  | i, key :: keys =>
    if compareByCodePoints key priorKey ≤ 0 then scan priorKey (i + 1) keys else some (key, i)

def start (m : MapStore α) (keys : List Key) (priorKey : Key) : Nat :=
  match m.prior with
  | none => 0
  | some (priorKeyReturned, priorKeyIndex) =>
    if compareByCodePoints priorKeyReturned priorKey ≤ 0 then priorKeyIndex + 1
    else if atBefore keys priorKeyIndex = some priorKey then priorKeyIndex
    else 0

def has (key : Key) (m : MapStore α) : Bool × MapStore α := (m.map.has key, m)

def get (key : Key) (m : MapStore α) : Option α × MapStore α := ((m.map.lookup key).join, m)

def getNextKey (priorKey : Key) (m : MapStore α) : Option Key × MapStore α :=
  let keys := m.ensureSorted
  let first := m.start keys priorKey
  let found := scan priorKey first (keys.drop first)
  (found.map Prod.fst, { m with sortedKeys := some keys, prior := found })

def set (key : Key) (value : Option α) (m : MapStore α) : MapStore α :=
  let m := if m.map.has key then m else m.clearSorted
  { m with map := m.map.insert key value }

def delete (key : Key) (m : MapStore α) : MapStore α :=
  let m := if m.map.has key then m.clearSorted else m
  { m with map := m.map.erase key }

def contents (m : MapStore α) : Contents α := AList.toFinmap m.map

/-- What is kept of the order is that of the keys there are. -/
structure Coherent (m : MapStore α) : Prop where
  sorted : ∀ keys, m.sortedKeys = some keys → keys.Pairwise (· < ·) ∧
    ∀ key, key ∈ keys ↔ m.map.has key = true
  prior : ∀ key index, m.prior = some (key, index) →
    ∃ keys, m.sortedKeys = some keys ∧ keys[index]? = some key

variable {m : MapStore α} {key : Key}

theorem lookup_contents (m : MapStore α) (key : Key) :
    m.contents.lookup key = m.map.lookup key := Finmap.lookup_toFinmap key m.map

theorem mem_keys_contents : key ∈ m.contents.keys ↔ m.map.has key = true := by
  rw [Finmap.mem_keys, ← Finmap.lookup_isSome, lookup_contents]
  rfl

theorem ensureSorted_spec (h : Coherent m) : m.ensureSorted.Pairwise (· < ·) ∧
    ∀ key, key ∈ m.ensureSorted ↔ m.map.has key = true := by
  unfold ensureSorted
  cases hsorted : m.sortedKeys with
  | some keys => exact h.sorted keys hsorted
  | none =>
    rw [Option.getD_none]
    have hperm := List.perm_insertionSort (fun a b => compareByCodePoints a b ≤ 0) m.map.keys
    have hnodup := hperm.nodup_iff.mpr (show m.map.keys.Nodup from AList.keys_nodup m.map)
    constructor
    · simp only [compareByCodePoints_le_zero] at hperm hnodup ⊢
      have hle := List.pairwise_insertionSort (· ≤ ·) m.map.keys
      exact (hle.and hnodup).imp fun hab => lt_of_le_of_ne hab.1 hab.2
    · intro key
      rw [hperm.mem_iff, Table.mem_keys_iff]

theorem scan_append {priorKey : Key} (keys before : List Key) (i : Nat)
    (hi : keys ≠ [] → i = before.length) (hsorted : (before ++ keys).Pairwise (· < ·))
    (hbefore : ∀ key ∈ before, key ≤ priorKey) :
    IsNext (before ++ keys).toFinset priorKey ((scan priorKey i keys).map Prod.fst) ∧
      ∀ key index, scan priorKey i keys = some (key, index) →
        (before ++ keys)[index]? = some key := by
  induction keys generalizing before i with
  | nil =>
    refine ⟨?_, nofun⟩
    intro key hkey
    rw [List.append_nil, List.mem_toFinset] at hkey
    exact hbefore key hkey
  | cons key keys ih =>
    have hi := hi (List.cons_ne_nil _ _)
    unfold scan
    split
    case isTrue hle =>
      have hkey := compareByCodePoints_le_zero.mp hle
      have happend : before ++ key :: keys = (before ++ [key]) ++ keys := by simp
      rw [happend] at hsorted ⊢
      apply ih (before ++ [key]) (i + 1) _ hsorted
      · intro key' hmem
        rcases List.mem_append.mp hmem with hmem | hmem
        · exact hbefore key' hmem
        · obtain rfl := List.mem_singleton.mp hmem
          exact hkey
      · intro _
        rw [List.length_append, hi]
        rfl
    case isFalse hnot =>
      have hlt : priorKey < key := lt_of_not_ge fun hle => hnot (compareByCodePoints_le_zero.mpr hle)
      obtain ⟨-, hrest, -⟩ := List.pairwise_append.mp hsorted
      have hfirst := (List.pairwise_cons.mp hrest).1
      constructor
      · refine ⟨by simp, hlt, ?_⟩
        intro key' hmem hlt'
        rw [List.mem_toFinset] at hmem
        rcases List.mem_append.mp hmem with hmem | hmem
        · exact absurd hlt' (not_lt_of_ge (hbefore key' hmem))
        · rcases List.mem_cons.mp hmem with rfl | hmem
          · exact le_refl key'
          · exact (hfirst key' hmem).le
      · intro key' index heq
        cases heq
        rw [hi, List.getElem?_append_right (le_refl _), Nat.sub_self]
        rfl

theorem le_of_mem_take_start (h : Coherent m) {priorKey : Key}
    (hkey : key ∈ m.ensureSorted.take (m.start m.ensureSorted priorKey)) : key ≤ priorKey := by
  have hsorted := (ensureSorted_spec h).1
  have hbefore : ∀ (n : Nat) (last : Key), m.ensureSorted[n]? = some last →
      key ∈ m.ensureSorted.take (n + 1) → key ≤ last := by
    intro n last hlast hmem
    obtain ⟨i, hi, heq⟩ := List.mem_take_iff_getElem.mp hmem
    obtain ⟨hn, hget⟩ := List.getElem?_eq_some_iff.mp hlast
    rw [← heq, ← hget]
    have hle : i ≤ n := by omega
    rcases Nat.lt_or_eq_of_le hle with hlt | rfl
    · exact (List.pairwise_iff_getElem.mp hsorted i n (by omega) hn hlt).le
    · exact le_refl _
  unfold start at hkey
  split at hkey
  case h_1 => cases hkey
  case h_2 priorKeyReturned priorKeyIndex hprior =>
    obtain ⟨keys, hkeys, hget⟩ := h.prior _ _ hprior
    have heq : m.ensureSorted = keys := by
      unfold ensureSorted
      rw [hkeys]
      rfl
    split at hkey
    case isTrue hle =>
      have hreturned := hbefore priorKeyIndex priorKeyReturned (heq.symm ▸ hget) hkey
      exact hreturned.trans (compareByCodePoints_le_zero.mp hle)
    case isFalse =>
      split at hkey
      case isFalse => cases hkey
      case isTrue hat =>
        cases priorKeyIndex with
        | zero => cases hkey
        | succ n => exact hbefore n priorKey hat hkey

theorem getNextKey_spec (h : Coherent m) (priorKey : Key) :
    (m.getNextKey priorKey).1 = next m.contents.keys priorKey ∧
      Coherent (m.getNextKey priorKey).2 ∧ (m.getNextKey priorKey).2.contents = m.contents := by
  obtain ⟨hsorted, hmem⟩ := ensureSorted_spec h
  let first := m.start m.ensureSorted priorKey
  have hkeys : (m.ensureSorted.take first ++ m.ensureSorted.drop first) = m.ensureSorted :=
    List.take_append_drop _ _
  have hbefore : ∀ key ∈ m.ensureSorted.take first, key ≤ priorKey :=
    fun key => le_of_mem_take_start h
  have hscan := scan_append (m.ensureSorted.drop first)
    (m.ensureSorted.take first) first (by
      intro hne
      rw [List.length_take]
      have hlt := List.length_pos_of_ne_nil hne
      rw [List.length_drop] at hlt
      omega) (hkeys.symm ▸ hsorted) hbefore
  rw [hkeys] at hscan
  have hset : m.ensureSorted.toFinset = m.contents.keys := by
    ext key
    rw [List.mem_toFinset, hmem, mem_keys_contents]
  rw [hset] at hscan
  refine ⟨hscan.1.next_eq.symm, ?_, rfl⟩
  constructor
  case sorted =>
    intro keys heq
    cases heq
    exact ⟨hsorted, hmem⟩
  case prior =>
    intro key index hprior
    exact ⟨_, rfl, hscan.2 key index hprior⟩

theorem coherent_clearSorted (t : Table Key (Option α)) :
    Coherent { m.clearSorted with map := t } := ⟨nofun, nofun⟩

@[simp] theorem map_set (m : MapStore α) (key : Key) (value : Option α) :
    (m.set key value).map = m.map.insert key value := by
  unfold set
  split <;> rfl

@[simp] theorem map_delete (m : MapStore α) (key : Key) :
    (m.delete key).map = m.map.erase key := by
  unfold delete
  split <;> rfl

theorem set_spec (h : Coherent m) (key : Key) (value : Option α) :
    Coherent (m.set key value) ∧ (m.set key value).contents = m.contents.insert key value := by
  have hcontents : (m.set key value).contents = m.contents.insert key value := by
    unfold contents
    rw [map_set]
    exact (Finmap.insert_toFinmap key value m.map).symm
  refine ⟨?_, hcontents⟩
  unfold set
  split
  case isTrue hhas =>
    refine ⟨?_, h.prior⟩
    intro keys heq
    obtain ⟨hsorted, hmem⟩ := h.sorted keys heq
    refine ⟨hsorted, ?_⟩
    intro key'
    rw [hmem, Table.has_insert_iff]
    constructor
    · exact .inr
    · rintro (rfl | hkey)
      · exact hhas
      · exact hkey
  case isFalse => exact coherent_clearSorted _

theorem delete_spec (h : Coherent m) (key : Key) :
    Coherent (m.delete key) ∧ (m.delete key).contents = m.contents.erase key := by
  have hcontents : (m.delete key).contents = m.contents.erase key := by
    unfold contents
    rw [map_delete]
    exact (Finmap.erase_toFinmap key m.map).symm
  refine ⟨?_, hcontents⟩
  unfold delete
  split
  case isTrue => exact coherent_clearSorted _
  case isFalse hhas =>
    refine ⟨?_, h.prior⟩
    intro keys heq
    obtain ⟨hsorted, hmem⟩ := h.sorted keys heq
    refine ⟨hsorted, ?_⟩
    intro key'
    rw [hmem, Table.has_erase_iff]
    constructor
    · intro hkey
      exact ⟨fun heq' => hhas (heq' ▸ hkey), hkey⟩
    · exact fun hkey => hkey.2

end MapStore

def makeKVStoreFromMap : KVStore α (MapStore α) where
  has := MapStore.has
  get := MapStore.get
  getNextKey key m :=
    let (next, m) := m.getNextKey key
    (.ok next, m)
  set := MapStore.set
  delete := MapStore.delete
  fuel m := m.map.size + 1

def mapView : View α (MapStore α) := ⟨MapStore.contents, MapStore.Coherent⟩

theorem makeKVStoreFromMap_implements :
    (makeKVStoreFromMap : KVStore α (MapStore α)).Implements mapView where
  has key m c h := by
    refine ⟨?_, h⟩
    rw [← h.content]
    exact congrArg Option.isSome (MapStore.lookup_contents m key).symm
  get key m c h := by
    refine ⟨?_, h⟩
    rw [← h.content]
    exact congrArg Option.join (MapStore.lookup_contents m key).symm
  set key value m c h := by
    obtain ⟨hok, hcontents⟩ := MapStore.set_spec h.ok key value
    exact ⟨hok, hcontents.trans (congrArg _ h.content)⟩
  delete key m c h := by
    obtain ⟨hok, hcontents⟩ := MapStore.delete_spec h.ok key
    exact ⟨hok, hcontents.trans (congrArg _ h.content)⟩

theorem card_keys_toFinmap (t : AList fun _ : Key => Option α) :
    (AList.toFinmap t).keys.card = t.entries.length := by
  rw [Finset.card, Finmap.keys_val, Multiset.coe_card]
  exact List.length_map _

theorem makeKVStoreFromMap_iterates :
    (makeKVStoreFromMap : KVStore α (MapStore α)).Iterates mapView where
  getNextKey key m c h := by
    obtain ⟨hnext, hok, hcontents⟩ := MapStore.getNextKey_spec h.ok key
    rw [← h.content]
    exact ⟨congrArg Except.ok hnext, hok, hcontents⟩
  fuel m c h := by
    rw [← h.content]
    exact Nat.lt_succ_of_le (card_keys_toFinmap m.map).le

end AgoricSdk.Storage
