import AgoricSdk.Lib.PathTree
import AgoricSdk.Vstorage.Keeper

/-!
The keeper refines a tree of data. The nodes of the tree are stored under the
keys of their paths, data after the data prefix and placeholders as the value
that stands for no data. Each read of the keeper is a read of the nodes, and
each write keeps them those of the tree.
-/

namespace AgoricSdk.Vstorage

open StateProgram PathTree

/-- How the store holds a node. -/
def rawValue : Node Bytes → Bytes
  | .data value => encodedDataPrefix ++ value
  | .placeholder => encodedNoDataValue

/-- The store holds these nodes and nothing else. -/
structure Stores (store : Table Bytes Bytes) (n : Nodes Segment Bytes) : Prop where
  lookup : ∀ p : Path, store.lookup p.key = (n p).map rawValue
  keyed : ∀ key, store.has key = true → ∃ p : Path, key = p.key

/-- The store holds the nodes of the tree. -/
def StoresTree (store : Table Bytes Bytes) (t : Tree Segment Bytes) : Prop :=
  ∃ n, Stores store n ∧ Represents t n

section Reads

variable {s : KeeperState} {n : Nodes Segment Bytes}

theorem Stores.has_key {store : Table Bytes Bytes} (h : Stores store n) (p : Path) :
    store.has p.key = (n p).isSome := by
  rw [Table.has, h.lookup, Option.isSome_map]

theorem getEntry_run (h : Stores s.store n) (p : Path) :
    getEntry p.text s = .ok ⟨p.text, n.value? p⟩ s := by
  rw [getEntry, bind_run (ofExcept_run p.pathToEncodedKey_text)]
  have hget : storeGet p.key s = .ok (((n p).map rawValue).getD []) s := by
    rw [← h.lookup]
    rfl
  rw [bind_run hget, Nodes.value?]
  cases n p with
  | none => rfl
  | some node =>
    cases node with
    | placeholder => rfl
    | data value =>
      have hnd : encodedDataPrefix ++ value ≠ encodedNoDataValue := by
        simp [encodedDataPrefix, encodedNoDataValue]
      have hcut : (encodedDataPrefix ++ value).dropPrefix? encodedDataPrefix = some value :=
        List.dropPrefix?_eq_some_iff.mpr ⟨_, rfl, by simp⟩
      simp only [Option.map_some, Option.getD_some, rawValue, if_neg hnd, hcut]
      rfl

theorem hasStorage_run (h : Stores s.store n) (p : Path) :
    hasStorage p.text s = .ok (n.value? p).isSome s := by
  rw [hasStorage, bind_run (getEntry_run h p)]
  rfl

theorem hasEntry_run (h : Stores s.store n) (p : Path) :
    hasEntry p.text s = .ok (n p).isSome s := by
  rw [hasEntry, bind_run (ofExcept_run p.pathToEncodedKey_text), ← h.has_key]
  rfl

theorem mem_iteratorKeys {store : Table Bytes Bytes} {keyPrefix key : Bytes} :
    key ∈ iteratorKeys store keyPrefix ↔ store.has key = true ∧ keyPrefix <+: key := by
  simp [iteratorKeys, Table.mem_keys_iff]

theorem Stores.mem_children_iff {store : Table Bytes Bytes} (h : Stores store n) {p : Path}
    {key : Bytes} : key ∈ iteratorKeys store p.childrenPrefix ↔
      ∃ c, key = Path.key (p ++ [c]) ∧ (n (p ++ [c])).isSome := by
  rw [mem_iteratorKeys]
  constructor
  · rintro ⟨hhas, hpre⟩
    obtain ⟨q, rfl⟩ := h.keyed key hhas
    obtain ⟨c, rfl⟩ := Path.childrenPrefix_isPrefix_key_iff.mp hpre
    exact ⟨c, rfl, by rw [← h.has_key]; exact hhas⟩
  · rintro ⟨c, rfl, hn⟩
    exact ⟨by rw [h.has_key]; exact hn, Path.childrenPrefix_isPrefix_key_iff.mpr ⟨c, rfl⟩⟩

theorem getKeyIterator_run (p : Path) (s : KeeperState) :
    getKeyIterator p.text s = .ok (iteratorKeys s.store p.childrenPrefix) s := by
  rw [getKeyIterator, bind_run (ofExcept_run p.pathToChildrenPrefix_text)]
  rfl

theorem hasChildren_run (h : Stores s.store n) (p : Path) :
    ∃ b, hasChildren p.text s = .ok b s ∧ (b = true ↔ ∃ c, (n (p ++ [c])).isSome) := by
  refine ⟨!(iteratorKeys s.store p.childrenPrefix).isEmpty, ?_, ?_⟩
  · rw [hasChildren, bind_run (getKeyIterator_run p s)]
    rfl
  · have hmem : (!(iteratorKeys s.store p.childrenPrefix).isEmpty) = true ↔
        ∃ key, key ∈ iteratorKeys s.store p.childrenPrefix :=
      ⟨fun h => List.exists_mem_of_ne_nil _ (by simpa using h),
        fun ⟨_, hk⟩ => by simpa using List.ne_nil_of_mem hk⟩
    rw [hmem]
    simp only [h.mem_children_iff]
    exact ⟨fun ⟨_, c, _, hc⟩ => ⟨c, hc⟩, fun ⟨c, hc⟩ => ⟨_, c, rfl, hc⟩⟩

theorem childName_run (p : Path) (c : Segment) (s : KeeperState) :
    childName (Path.key (p ++ [c])) s = .ok c.val s := by
  rw [childName, bind_run (ofExcept_run (Path.encodedKeyToPath_key _))]
  have hne : p ++ [c] ≠ [] := by simp
  rw [splitPath, Path.splitOn_text hne]
  simp
  rfl

theorem iteratorKeys_pairwise (store : Table Bytes Bytes) (keyPrefix : Bytes) :
    (iteratorKeys store keyPrefix).Pairwise (· < ·) := by
  have hnd : (iteratorKeys store keyPrefix).Nodup :=
    (List.perm_insertionSort _ _).nodup_iff.mpr
      ((AList.keys_nodup _).filter _)
  have hle := List.pairwise_insertionSort (· ≤ ·)
    (store.keys.filter fun key => keyPrefix.isPrefixOf key)
  exact (hle.and hnd).imp fun h => lt_of_le_of_ne h.1 h.2

theorem append_lt_append_iff {a b c : Bytes} : a ++ b < a ++ c ↔ b < c := by
  induction a with
  | nil => rfl
  | cons x a ih => simp [ih]

theorem getChildren_run (h : Stores s.store n) (p : Path) :
    ∃ children, getChildren p.text s = .ok children s ∧ children.Pairwise (· < ·) ∧
      ∀ name, name ∈ children ↔ ∃ c : Segment, name = c.val ∧ (n (p ++ [c])).isSome := by
  have hkey : ∀ key ∈ iteratorKeys s.store p.childrenPrefix,
      ∃ c : Segment, key = p.childrenPrefix ++ c.val ∧ (n (p ++ [c])).isSome := by
    intro key hk
    obtain ⟨c, rfl, hc⟩ := h.mem_children_iff.mp hk
    exact ⟨c, Path.key_append_singleton p c, hc⟩
  refine ⟨(iteratorKeys s.store p.childrenPrefix).map fun key =>
    key.drop p.childrenPrefix.length, ?_, ?_, ?_⟩
  · rw [getChildren, bind_run (getKeyIterator_run p s)]
    refine mapM_run fun key hk => ?_
    obtain ⟨c, rfl, -⟩ := hkey key hk
    rw [← Path.key_append_singleton, childName_run, Path.key_append_singleton, List.drop_left]
  · rw [List.pairwise_map]
    refine (iteratorKeys_pairwise s.store p.childrenPrefix).imp_of_mem fun {k k'} hk hk' hlt => ?_
    obtain ⟨c, rfl, -⟩ := hkey k hk
    obtain ⟨c', rfl, -⟩ := hkey k' hk'
    rw [List.drop_left, List.drop_left]
    exact append_lt_append_iff.mp hlt
  · intro name
    rw [List.mem_map]
    constructor
    · rintro ⟨key, hk, rfl⟩
      obtain ⟨c, rfl, hc⟩ := hkey key hk
      exact ⟨c, List.drop_left, hc⟩
    · rintro ⟨c, rfl, hc⟩
      refine ⟨_, h.mem_children_iff.mpr ⟨c, rfl, hc⟩, ?_⟩
      rw [Path.key_append_singleton, List.drop_left]

end Reads

section Writes

variable {t : Tree Segment Bytes}

theorem Stores.insert {store : Table Bytes Bytes} {n : Nodes Segment Bytes} (h : Stores store n)
    (p : Path) (node : Node Bytes) :
    Stores (store.insert p.key (rawValue node)) (n.put p (some node)) where
  lookup q := by
    rw [Table.lookup_insert]
    by_cases hq : q = p
    · subst hq
      simp
    · rw [if_neg fun hk => hq (Path.key_injective hk), Nodes.put_of_ne hq, h.lookup]
  keyed key hk := by
    obtain rfl | hk := Table.has_insert_iff.mp hk
    · exact ⟨p, rfl⟩
    · exact h.keyed key hk

theorem Stores.erase {store : Table Bytes Bytes} {n : Nodes Segment Bytes} (h : Stores store n)
    (p : Path) : Stores (store.erase p.key) (n.put p none) where
  lookup q := by
    rw [Table.lookup_erase]
    by_cases hq : q = p
    · subst hq
      simp
    · rw [if_neg fun hk => hq (Path.key_injective hk), Nodes.put_of_ne hq, h.lookup]
  keyed key hk := h.keyed key (Table.has_erase_iff.mp hk).2

theorem componentsToPath_take (p : Path) (i : Nat) :
    componentsToPath ((p.map Segment.val).take i) = Path.text (p.take i) := by
  rw [componentsToPath, Path.text, List.map_take]

/-- The call returns, leaves the change batch alone and the store with the tree. -/
def Writes (m : Keeper Unit) (t : Tree Segment Bytes) (s : KeeperState) : Prop :=
  ∃ store, m s = .ok () { s with store } ∧ StoresTree store t

theorem Writes.of_eq {m n : Keeper Unit} {s r : KeeperState} (h : m s = n r)
    (hs : r.changes = s.changes) (hw : Writes n t r) : Writes m t s := by
  obtain ⟨store, hrun, ht⟩ := hw
  refine ⟨store, ?_, ht⟩
  rw [h, hrun, hs]

theorem Writes.stop {s : KeeperState} (h : StoresTree s.store t) : Writes (pure ()) t s :=
  ⟨s.store, rfl, h⟩

theorem addPlaceholders_writes {p : Path} {v : Bytes} (i : Nat) {n : Nodes Segment Bytes}
    {s : KeeperState} (hs : Stores s.store n) (h : Growing t p v i n) :
    Writes (addPlaceholders (p.map Segment.val) i) (write t p (some v)) s := by
  induction i generalizing n s with
  | zero => exact .stop ⟨n, hs, h.finish⟩
  | succ i ih =>
    have hread := hasEntry_run hs (p.take i)
    rw [← componentsToPath_take] at hread
    cases hn : n (p.take i) with
    | some node =>
      refine Writes.of_eq (n := pure ()) (r := s) ?_ rfl
        (.stop ⟨n, hs, h.stop (by rw [hn]; rfl)⟩)
      rw [addPlaceholders, bind_run hread, hn]
      rfl
    | none =>
      let s' : KeeperState :=
        { s with store := s.store.insert (Path.key (p.take i)) encodedNoDataValue }
      have hs' : Stores s'.store (n.put (p.take i) (some .placeholder)) := hs.insert _ .placeholder
      refine Writes.of_eq ?_ (r := s') rfl (ih hs' (h.step hn))
      rw [addPlaceholders, bind_run hread, hn, componentsToPath_take]
      simp only [Option.isSome_none, Bool.false_eq_true, if_false]
      rw [bind_run (ofExcept_run (Path.pathToEncodedKey_text _))]
      rfl

theorem deletePlaceholders_writes {p : Path} (i : Nat) {n : Nodes Segment Bytes}
    {s : KeeperState} (hs : Stores s.store n) (h : Pruning t p i n) :
    Writes (deletePlaceholders (p.map Segment.val) i) t s := by
  induction i generalizing n s with
  | zero => exact .stop ⟨n, hs, h.finish⟩
  | succ i ih =>
    have hdata := hasStorage_run hs (p.take i)
    obtain ⟨b, hchildren, hb⟩ := hasChildren_run hs (p.take i)
    rw [← componentsToPath_take] at hdata hchildren
    by_cases hl : Live t (p.take i)
    · refine Writes.of_eq ?_ (n := pure ()) (r := s) rfl (.stop ⟨n, hs, h.stop hl⟩)
      rw [deletePlaceholders, bind_run hdata]
      cases hv : (n.value? (p.take i)).isSome with
      | true => rfl
      | false =>
        have hbt : b = true := hb.mpr ((h.live_iff.mp hl).resolve_left (by simp [hv]))
        simp only [Bool.false_eq_true, if_false]
        rw [bind_run hchildren, hbt]
        rfl
    · have hv : (n.value? (p.take i)).isSome = false := by
        by_contra hc
        exact hl (h.live_iff.mpr (.inl (by simpa only [Bool.not_eq_false] using hc)))
      have hbf : b = false := by
        by_contra hc
        exact hl (h.live_iff.mpr (.inr (hb.mp (by simpa using hc))))
      let s' : KeeperState := { s with store := s.store.erase (Path.key (p.take i)) }
      have hs' : Stores s'.store (n.put (p.take i) none) := hs.erase _
      refine Writes.of_eq ?_ (r := s') rfl (ih hs' (h.step (Pruning.exact_none hl)))
      rw [deletePlaceholders, bind_run hdata, hv]
      simp only [Bool.false_eq_true, if_false]
      rw [bind_run hchildren, hbf, componentsToPath_take]
      simp only [Bool.false_eq_true, if_false]
      rw [bind_run (ofExcept_run (Path.pathToEncodedKey_text _))]
      rfl

theorem splitPath_text {p : Path} (hp : p ≠ []) : splitPath p.text = p.map Segment.val :=
  Path.splitOn_text hp

theorem setStorage_some_writes {s : KeeperState} (h : StoresTree s.store t) (p : Path)
    (v : Bytes) : Writes (setStorage ⟨p.text, some v⟩) (write t p (some v)) s := by
  obtain ⟨n, hs, hn⟩ := h
  let s' : KeeperState := { s with store := s.store.insert p.key (encodedDataPrefix ++ v) }
  have hs' : Stores s'.store (n.put p (some (.data v))) := hs.insert p (.data v)
  have hgrow := Growing.start hn p v
  have hrun : setStorage ⟨p.text, some v⟩ s =
      addPlaceholders (splitPath p.text) (splitPath p.text).length s' := by
    rw [setStorage, bind_run (ofExcept_run p.pathToEncodedKey_text)]
    rfl
  by_cases hp : p = []
  · subst hp
    refine Writes.of_eq ?_ (n := pure ()) (r := s') rfl (.stop ⟨_, hs', hgrow.finish⟩)
    have hread := hasEntry_run hs' []
    rw [Nodes.put_self] at hread
    rw [hrun]
    change addPlaceholders [[]] 1 s' = _
    rw [addPlaceholders]
    exact bind_run hread
  · rw [splitPath_text hp, List.length_map] at hrun
    exact .of_eq hrun rfl (addPlaceholders_writes p.length hs' hgrow)

/-- Removing the data of a path: the tree is the one without it, and the nodes
are right but for the ancestors, which may be there for no reason. -/
theorem setStorage_none_writes {s : KeeperState} {n : Nodes Segment Bytes}
    (hs : Stores s.store n) {p : Path} (hp : t p = none)
    (hanc : ∀ q, q <+: p → q ≠ p → Covers t n q) (hrest : ∀ q, ¬ q <+: p → Exact t n q) :
    Writes (setStorage ⟨p.text, none⟩) t s := by
  obtain ⟨b, hchildren, hb⟩ := hasChildren_run hs p
  have hlive := (live_iff_of_none hp hrest).trans hb.symm
  let node : Option (Node Bytes) := if b = true then some .placeholder else none
  have hnode : Exact t (n.put p node) p := by
    refine ⟨?_, ?_⟩
    · cases b <;> simp [Nodes.value?, Node.value?, node, hp]
    · cases b <;> simp [node, hlive]
  obtain ⟨s', hrun, hchanges, hs'⟩ : ∃ s' : KeeperState,
      setStorage ⟨p.text, none⟩ s =
        deletePlaceholders (splitPath p.text) (splitPath p.text).length s' ∧
      s'.changes = s.changes ∧ Stores s'.store (n.put p node) := by
    cases b with
    | false =>
      refine ⟨{ s with store := s.store.erase p.key }, ?_, rfl, hs.erase p⟩
      rw [setStorage, bind_run (ofExcept_run p.pathToEncodedKey_text)]
      exact bind_run hchildren
    | true =>
      refine ⟨{ s with store := s.store.insert p.key encodedNoDataValue }, ?_, rfl,
        hs.insert p .placeholder⟩
      rw [setStorage, bind_run (ofExcept_run p.pathToEncodedKey_text)]
      exact bind_run hchildren
  have hprune := Pruning.start hanc hrest hnode
  by_cases hroot : p = []
  · subst hroot
    -- The loop visits the root, its own ancestor in the source's terms.
    exact .of_eq hrun hchanges (deletePlaceholders_writes 1 hs' (hprune.finish.pruning [] 1))
  · rw [splitPath_text hroot, List.length_map] at hrun
    exact .of_eq hrun hchanges (deletePlaceholders_writes p.length hs' hprune)

theorem setStorage_writes {s : KeeperState} (h : StoresTree s.store t) (p : Path)
    (value : Option Bytes) : Writes (setStorage ⟨p.text, value⟩) (write t p value) s := by
  cases value with
  | some v => exact setStorage_some_writes h p v
  | none =>
    obtain ⟨n, hs, hn⟩ := h
    exact setStorage_none_writes hs (write_self t p none) (fun q _ hne => hn.covers_write hne)
      fun q hq => hn.exact_write hq none

theorem track_run {s : KeeperState} (h : StoresTree s.store t) (p : Path) (value : Option Bytes)
    (isLegacy : Bool) : ∃ changes, track ⟨p.text, value⟩ isLegacy s = .ok () { s with changes } := by
  obtain ⟨n, hs, -⟩ := h
  cases hc : s.changes.lookup p.text with
  | some change =>
    have hrun : track ⟨p.text, value⟩ isLegacy s = .ok () { s with
        changes := s.changes.insert p.text
          { change with
            newValue := value.getD []
            legacyEvents := isLegacy || change.legacyEvents } } := by
      rw [track, bind_run get_run, hc]
      rfl
    exact ⟨_, hrun⟩
  | none =>
    have hrun : track ⟨p.text, value⟩ isLegacy s = .ok () { s with
        changes := s.changes.insert p.text
          { path := p.text
            valueFromLastBlock := (n.value? p).getD []
            newValue := value.getD []
            legacyEvents := isLegacy } } := by
      rw [track, bind_run get_run, hc]
      exact bind_run (getEntry_run hs p)
    exact ⟨_, hrun⟩

/-- The call returns and leaves the store with the tree. -/
def Updates {α : Type} (m : Keeper α) (t : Tree Segment Bytes) (s : KeeperState) : Prop :=
  ∃ a s', m s = .ok a s' ∧ StoresTree s'.store t

theorem Writes.updates {m : Keeper Unit} {s : KeeperState} (h : Writes m t s) : Updates m t s := by
  obtain ⟨store, hrun, hs⟩ := h
  exact ⟨_, _, hrun, hs⟩

theorem track_setStorage_updates {s : KeeperState} (h : StoresTree s.store t) (p : Path)
    (value : Option Bytes) (isLegacy : Bool) :
    Updates (do track ⟨p.text, value⟩ isLegacy; setStorage ⟨p.text, value⟩)
      (write t p value) s := by
  obtain ⟨changes, htrack⟩ := track_run h p value isLegacy
  obtain ⟨store, hset, hs⟩ := setStorage_writes (s := { s with changes }) h p value
  exact ⟨(), _, (bind_run htrack).trans hset, hs⟩

/-- The data of a path after a value is appended to its cell. -/
def CellJSON.appended (json : CellJSON) (height : Int) (old : Option Bytes) (value : Bytes) :
    Option Bytes :=
  match json.marshal (json.append height (old.getD []) value) with
  | .error _ => old
  | .ok bz => some bz

theorem append_updates {s : KeeperState} (h : StoresTree s.store t) (json : CellJSON)
    (height : Int) (p : Path) (value : Bytes) :
    Updates (appendStorageValueAndNotify json height p.text value)
      (write t p (json.appended height (t p) value)) s := by
  have hread : getEntry p.text s = .ok ⟨p.text, t p⟩ s := by
    obtain ⟨n, hs, hn⟩ := h
    rw [getEntry_run hs, hn.value?]
  unfold Updates
  rw [appendStorageValueAndNotify, bind_run hread, CellJSON.appended, KVEntry.stringValue]
  cases json.marshal (json.append height ((t p).getD []) value) with
  | error err =>
    refine ⟨_, _, rfl, ?_⟩
    have hsame : write t p (t p) = t := Function.update_eq_self p t
    rwa [hsame]
  | ok bz =>
    obtain ⟨a, s', hrun, hs'⟩ := track_setStorage_updates h p (some bz) false
    exact ⟨_, s', bind_run hrun, hs'⟩

theorem forM_storeDelete_run (keys : List Bytes) (s : KeeperState) :
    ∃ store, keys.forM storeDelete s = .ok () { s with store } ∧
      ∀ key, store.lookup key = if key ∈ keys then none else s.store.lookup key := by
  induction keys generalizing s with
  | nil => exact ⟨s.store, rfl, fun key => by simp⟩
  | cons k keys ih =>
    obtain ⟨store, hrun, hlookup⟩ := ih { s with store := s.store.erase k }
    refine ⟨store, ?_, fun key => ?_⟩
    · change (storeDelete k >>= fun _ => keys.forM storeDelete) s = _
      exact (bind_run rfl).trans hrun
    · rw [hlookup, Table.lookup_erase]
      by_cases hk : key = k <;> simp [hk]

/-- The keys whose path begins with that of `p` and a separator are deleted: the
nodes strictly below `p`. -/
theorem Stores.removeBelow {store store' : Table Bytes Bytes} {n : Nodes Segment Bytes}
    (h : Stores store n) {p : Path} (hp : p ≠ []) {keys : List Bytes}
    (hkeys : ∀ q : Path, q.key ∈ keys ↔
      store.has q.key = true ∧ p.text ++ [pathSeparator] <+: q.text)
    (hlookup : ∀ key, store'.lookup key = if key ∈ keys then none else store.lookup key) :
    Stores store' (n.removeBelow p) where
  lookup q := by
    rw [hlookup, h.lookup, Nodes.removeBelow]
    have hbelow : p.text ++ [pathSeparator] <+: q.text ↔ p <+: q ∧ q ≠ p := by
      rw [Path.text_dot_isPrefix_text_iff hp]
      constructor
      · rintro ⟨c, r, rfl⟩
        exact ⟨List.prefix_append _ _, by simp⟩
      · rintro ⟨⟨r, rfl⟩, hne⟩
        cases r with
        | nil => simp at hne
        | cons c r => exact ⟨c, r, rfl⟩
    by_cases hc : p <+: q ∧ q ≠ p
    · rw [if_pos hc]
      by_cases hhas : store.has q.key = true
      · rw [if_pos ((hkeys q).mpr ⟨hhas, hbelow.mpr hc⟩)]
        rfl
      · rw [h.has_key, Bool.not_eq_true, Option.isSome_eq_false_iff, Option.isNone_iff_eq_none]
          at hhas
        simp [hhas]
    · rw [if_neg hc, if_neg fun hk => hc (hbelow.mp ((hkeys q).mp hk).2)]
  keyed key hk := by
    apply h.keyed
    rw [Table.has, hlookup] at hk
    rw [Table.has]
    split at hk
    · cases hk
    · exact hk

theorem getEncodedKeysWithPrefix_run {s : KeeperState} {n : Nodes Segment Bytes}
    (hs : Stores s.store n) (pathPrefix : Bytes) :
    ∃ keys, getEncodedKeysWithPrefixFromIterator pathPrefix (iteratorKeys s.store []) s =
        .ok keys s ∧
      ∀ q : Path, q.key ∈ keys ↔ s.store.has q.key = true ∧ pathPrefix <+: q.text := by
  let g : Bytes → Bool := fun key =>
    match encodedKeyToPath key with
    | .ok path => pathPrefix.isPrefixOf path
    | .error _ => false
  have hg : ∀ q : Path, g q.key = pathPrefix.isPrefixOf q.text := fun q => by
    simp only [g, q.encodedKeyToPath_key]
  refine ⟨(iteratorKeys s.store []).filter g, filterM_run fun key hk => ?_, fun q => ?_⟩
  · obtain ⟨q, rfl⟩ := hs.keyed key (mem_iteratorKeys.mp hk).1
    rw [hg]
    exact bind_run (ofExcept_run q.encodedKeyToPath_key)
  · rw [List.mem_filter, mem_iteratorKeys, hg, List.isPrefixOf_iff_prefix]
    simp

theorem removeEntriesWithPrefix_updates {s : KeeperState} (h : StoresTree s.store t) {p : Path}
    (hp : p ≠ []) : Updates (removeEntriesWithPrefix p.text) (removeSubtree t p) s := by
  obtain ⟨n, hs, hn⟩ := h
  obtain ⟨keys, hkeys, hmem⟩ := getEncodedKeysWithPrefix_run hs (p.text ++ [pathSeparator])
  obtain ⟨store, hdelete, hlookup⟩ := forM_storeDelete_run keys s
  have hstores : Stores store (n.removeBelow p) := hs.removeBelow hp hmem hlookup
  have hnone : removeSubtree t p p = none := if_pos List.prefix_rfl
  obtain ⟨store', hset, hs'⟩ := setStorage_none_writes (s := { s with store }) hstores hnone
    (fun q hq hne => hn.covers_removeSubtree hq hne) fun q hq => hn.exact_removeSubtree hq
  have hlen : ¬ p.text.length = 0 := by
    rw [List.length_eq_zero_iff, Path.text_eq_nil_iff]
    exact hp
  refine ⟨(), { s with store := store' }, ?_, hs'⟩
  rw [removeEntriesWithPrefix, if_neg hlen, Path.validatePath_text]
  have hiter : kvStorePrefixIterator [] s = .ok (iteratorKeys s.store []) s := rfl
  calc _ = _ := bind_run hiter
    _ = _ := bind_run hkeys
    _ = _ := bind_run hdelete
    _ = _ := hset

theorem importStorage_updates {s : KeeperState} (h : StoresTree s.store t)
    (entries : List (Path × Bytes)) :
    Updates (importStorage (entries.map fun e => ⟨e.1.text, e.2⟩))
      (entries.foldl (fun t e => write t e.1 (some e.2)) t) s := by
  induction entries generalizing s t with
  | nil => exact ⟨(), s, rfl, h⟩
  | cons e entries ih =>
    obtain ⟨store, hset, hs⟩ := setStorage_writes h e.1 (some e.2)
    obtain ⟨a, s', hrun, hs'⟩ := ih (s := { s with store }) hs
    refine ⟨a, s', ?_, hs'⟩
    exact (bind_run hset).trans hrun

end Writes

section Calls

/-- The writing calls of the keeper, on valid paths. -/
inductive Call where
  | setStorage (path : Path) (value : Option Bytes)
  | setStorageAndNotify (path : Path) (value : Option Bytes)
  | legacySetStorageAndNotify (path : Path) (value : Option Bytes)
  | appendStorageValueAndNotify (height : Int) (path : Path) (value : Bytes)
  | removeEntriesWithPrefix (pathPrefix : Path)
  | importStorage (entries : List (Path × Bytes))

/-- What the keeper does at a call. -/
def Call.run (json : CellJSON) : Call → Keeper Unit
  | .setStorage path value => Vstorage.setStorage ⟨path.text, value⟩
  | .setStorageAndNotify path value => Vstorage.setStorageAndNotify ⟨path.text, value⟩
  | .legacySetStorageAndNotify path value => Vstorage.legacySetStorageAndNotify ⟨path.text, value⟩
  | .appendStorageValueAndNotify height path value => do
    let _ ← Vstorage.appendStorageValueAndNotify json height path.text value
    return
  | .removeEntriesWithPrefix pathPrefix => Vstorage.removeEntriesWithPrefix pathPrefix.text
  | .importStorage entries => Vstorage.importStorage (entries.map fun e => ⟨e.1.text, e.2⟩)

/-- What a call does to the tree. The root cannot be removed. -/
def Call.apply (json : CellJSON) : Call → Tree Segment Bytes → Tree Segment Bytes
  | .setStorage path value, t => write t path value
  | .setStorageAndNotify path value, t => write t path value
  | .legacySetStorageAndNotify path value, t => write t path value
  | .appendStorageValueAndNotify height path value, t =>
    write t path (json.appended height (t path) value)
  | .removeEntriesWithPrefix pathPrefix, t =>
    if pathPrefix = [] then t else removeSubtree t pathPrefix
  | .importStorage entries, t => entries.foldl (fun t e => write t e.1 (some e.2)) t

variable {s : KeeperState} {t : Tree Segment Bytes}

/-- Every call returns and does what it does to the tree, save that removing
everything panics. -/
theorem Call.updates (json : CellJSON) (c : Call) (h : StoresTree s.store t)
    (hc : c ≠ .removeEntriesWithPrefix []) : Updates (c.run json) (c.apply json t) s := by
  cases c with
  | setStorage path value => exact (setStorage_writes h path value).updates
  | setStorageAndNotify path value => exact track_setStorage_updates h path value false
  | legacySetStorageAndNotify path value => exact track_setStorage_updates h path value true
  | appendStorageValueAndNotify height path value =>
    obtain ⟨a, s', hrun, hs'⟩ := append_updates h json height path value
    exact ⟨(), s', bind_run hrun, hs'⟩
  | removeEntriesWithPrefix pathPrefix =>
    have hp : pathPrefix ≠ [] := fun hp => hc (by rw [hp])
    rw [Call.apply, if_neg hp]
    exact removeEntriesWithPrefix_updates h hp
  | importStorage entries => exact importStorage_updates h entries

theorem Call.storesTree (json : CellJSON) (c : Call) (h : StoresTree s.store t) :
    StoresTree (finalState (c.run json) s).store (c.apply json t) := by
  by_cases hc : c = .removeEntriesWithPrefix []
  · subst hc
    exact h
  · obtain ⟨a, s', hrun, hs'⟩ := c.updates json h hc
    rw [finalState, hrun]
    exact hs'

/-- The state after a sequence of calls; a call that panics keeps what it did. -/
def runCalls (json : CellJSON) (calls : List Call) : KeeperState :=
  calls.foldl (fun s c => finalState (c.run json) s) {}

def applyCalls (json : CellJSON) (calls : List Call) : Tree Segment Bytes :=
  calls.foldl (fun t c => c.apply json t) fun _ => none

theorem runCalls_storesTree (json : CellJSON) (calls : List Call) :
    StoresTree (runCalls json calls).store (applyCalls json calls) := by
  induction calls using List.reverseRecOn with
  | nil => exact ⟨fun _ => none, ⟨fun _ => rfl, fun _ hk => by cases hk⟩, represents_empty⟩
  | append_singleton calls c ih =>
    rw [runCalls, applyCalls, List.foldl_append, List.foldl_append]
    exact c.storesTree json ih

/-- What the store and the reads of the keeper show of a tree. -/
structure Shows (s : KeeperState) (t : Tree Segment Bytes) : Prop where
  keys : ∀ key, s.store.has key = true ↔ ∃ p : Path, key = p.key ∧ Live t p
  entry : ∀ p : Path, getEntry p.text s = .ok ⟨p.text, t p⟩ s
  hasStorage : ∀ p : Path, hasStorage p.text s = .ok (t p).isSome s
  hasEntry : ∀ p : Path, ∃ b, hasEntry p.text s = .ok b s ∧ (b = true ↔ Live t p)
  children : ∀ p : Path, ∃ children, getChildren p.text s = .ok children s ∧
    children.Pairwise (· < ·) ∧
    ∀ name, name ∈ children ↔ ∃ c : Segment, name = c.val ∧ Live t (p ++ [c])

theorem StoresTree.shows (h : StoresTree s.store t) : Shows s t := by
  obtain ⟨n, hs, hn⟩ := h
  refine ⟨fun key => ?_, fun p => ?_, fun p => ?_, fun p => ?_, fun p => ?_⟩
  · constructor
    · intro hk
      obtain ⟨p, rfl⟩ := hs.keyed key hk
      exact ⟨p, rfl, (hn p).live.mp (by rwa [← hs.has_key])⟩
    · rintro ⟨p, rfl, hl⟩
      rw [hs.has_key]
      exact (hn p).live.mpr hl
  · rw [getEntry_run hs, hn.value?]
  · rw [hasStorage_run hs, hn.value?]
  · exact ⟨_, hasEntry_run hs p, (hn p).live⟩
  · obtain ⟨children, hrun, hsorted, hmem⟩ := getChildren_run hs p
    refine ⟨children, hrun, hsorted, fun name => ?_⟩
    simp only [hmem, (hn _).live]

/-- The encoding of paths: every valid path has one key, from which it is read
back, and the children prefix picks out the keys of its children. -/
structure PathEncoding : Prop where
  valid : ∀ b, validatePath b = .ok () ↔ ∃ p : Path, p.text = b
  encode : ∀ p : Path, pathToEncodedKey p.text = .ok p.key
  decode : ∀ p : Path, encodedKeyToPath p.key = .ok p.text
  injective : ∀ p q : Path, p.key = q.key → p.text = q.text
  childrenPrefix : ∀ p : Path, pathToChildrenPrefix p.text = .ok p.childrenPrefix
  children : ∀ p q : Path, p.childrenPrefix <+: q.key ↔ ∃ c, q = p ++ [c]

theorem pathEncoding : PathEncoding where
  valid _ := Path.validatePath_iff
  encode := Path.pathToEncodedKey_text
  decode := Path.encodedKeyToPath_key
  injective _ _ h := by rw [Path.key_injective h]
  childrenPrefix := Path.pathToChildrenPrefix_text
  children _ _ := Path.childrenPrefix_isPrefix_key_iff

/-- After any sequence of calls the store shows the tree of the data written. -/
theorem vstorage_refines_tree (json : CellJSON) (calls : List Call) :
    Shows (runCalls json calls) (applyCalls json calls) ∧ PathEncoding :=
  ⟨(runCalls_storesTree json calls).shows, pathEncoding⟩

end Calls

end AgoricSdk.Vstorage
