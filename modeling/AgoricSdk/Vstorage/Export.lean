import AgoricSdk.Vstorage.Tree

/-!
Exporting storage, and importing it again. An export lists the data strictly
below its path, or all data when the path is empty; an import writes a listing.
What a store holds is determined by its tree, so it is enough to follow the
trees.
-/

namespace AgoricSdk.Vstorage

open StateProgram PathTree

/-! ## Genesis -/

structure GenesisState where
  data : List DataEntry
  deriving DecidableEq

/-- The first entry with an invalid path is reported. -/
def validateGenesis (data : GenesisState) : Except (Bytes × PathError) Unit :=
  data.data.forM fun entry =>
    match validatePath entry.path with
    | .ok () => .ok ()
    | .error err => .error (entry.path, err)

def initGenesis (data : GenesisState) : Keeper Unit := importStorage data.data

def exportGenesis : Keeper (Except ExportError GenesisState) := do
  return (← exportStorage).map fun data => { data }

/-! ## The store and its tree -/

theorem StoresTree.lookup_eq {store store' : Table Bytes Bytes} {t : Tree Segment Bytes}
    (h : StoresTree store t) (h' : StoresTree store' t) (key : Bytes) :
    store.lookup key = store'.lookup key := by
  obtain ⟨n, hs, hn⟩ := h
  obtain ⟨n', hs', hn'⟩ := h'
  obtain rfl := hn.unique hn'
  have hnone : ∀ {store : Table Bytes Bytes}, Stores store n → (¬ ∃ p : Path, key = p.key) →
      store.lookup key = none := by
    intro store hs hkey
    by_contra hlookup
    exact hkey (hs.keyed key (Option.isSome_iff_ne_none.mpr hlookup))
  by_cases hkey : ∃ p : Path, key = p.key
  · obtain ⟨p, rfl⟩ := hkey
    rw [hs.lookup, hs'.lookup]
  · rw [hnone hs hkey, hnone hs' hkey]

theorem StoresTree.data_eq {store : Table Bytes Bytes} {t t' : Tree Segment Bytes}
    (h : StoresTree store t) (h' : StoresTree store t') : t = t' := by
  obtain ⟨n, hs, hn⟩ := h
  obtain ⟨n', hs', hn'⟩ := h'
  funext p
  have hread := getEntry_run (s := { store }) hs p
  rw [getEntry_run (s := { store }) hs' p, hn.value?, hn'.value?] at hread
  injection hread with hentry
  exact (congrArg KVEntry.value hentry).symm

theorem StoresTree.congr {store store' : Table Bytes Bytes} {t : Tree Segment Bytes}
    (h : StoresTree store t) (hlookup : ∀ key, store'.lookup key = store.lookup key) :
    StoresTree store' t := by
  obtain ⟨n, hs, hn⟩ := h
  refine ⟨n, ⟨fun p => by rw [hlookup, hs.lookup], fun key hk => hs.keyed key ?_⟩, hn⟩
  rwa [Table.has, hlookup] at hk

theorem storesTree_empty : StoresTree ∅ (fun _ => none) :=
  ⟨fun _ => none, ⟨fun _ => rfl, fun _ hk => by cases hk⟩, represents_empty⟩

/-! ## Exporting -/

section Export

variable {s : KeeperState} {n : Nodes Segment Bytes} {t : Tree Segment Bytes}

theorem Path.text_append {p q : Path} (hp : p ≠ []) (hq : q ≠ []) :
    Path.text (p ++ q) = p.text ++ pathSeparator :: q.text := by
  have hjoined : pathSeparator :: Path.text (p ++ q) =
      pathSeparator :: (p.text ++ pathSeparator :: q.text) := by
    rw [dot_text (by simp [hp]), joined_append, ← dot_text hp, ← dot_text hq, List.cons_append]
  exact (List.cons.inj hjoined).2

/-- The prefix that the export compares with. -/
def exportPrefix (p : Path) : Bytes :=
  if p = [] then [] else p.text ++ [pathSeparator]

/-- The entry that the export makes for a path. -/
def exportEntry (t : Tree Segment Bytes) (pathPrefix : Bytes) (p : Path) : Option DataEntry :=
  if pathPrefix <+: p.text then
    (t p).map fun v => ⟨p.text.drop pathPrefix.length, v⟩
  else none

theorem exportEntries_run (hs : Stores s.store n) (hn : Represents t n) (pathPrefix : Bytes)
    (paths : List Path) (exported : List DataEntry) :
    exportEntries pathPrefix (paths.map Path.key) exported s =
      .ok (.ok (exported ++ paths.filterMap (exportEntry t pathPrefix))) s := by
  induction paths generalizing exported with
  | nil =>
    rw [List.filterMap_nil, List.append_nil]
    rfl
  | cons p paths ih =>
    have hget : storeGet p.key s = .ok (((n p).map rawValue).getD []) s := by
      rw [← hs.lookup]
      rfl
    have hvalue : n.value? p = t p := hn.value? p
    -- Without data the loop goes on to the next key.
    have hskip : exportEntry t pathPrefix p = none →
        exportEntries pathPrefix (p.key :: paths.map Path.key) exported s =
          exportEntries pathPrefix (paths.map Path.key) exported s →
        exportEntries pathPrefix ((p :: paths).map Path.key) exported s =
          .ok (.ok (exported ++ (p :: paths).filterMap (exportEntry t pathPrefix))) s := by
      intro hentry hrun
      rw [List.map_cons, hrun, ih, List.filterMap_cons_none hentry]
    unfold Nodes.value? at hvalue
    cases hnode : n p with
    | none =>
      rw [hnode] at hvalue hget
      refine hskip (by simp [exportEntry, ← hvalue]) ?_
      exact bind_run hget
    | some node =>
      rw [hnode] at hvalue hget
      cases node with
      | placeholder =>
        refine hskip (by simp [exportEntry, ← hvalue, Node.value?]) ?_
        exact bind_run hget
      | data value =>
        have hraw : storeGet p.key s = .ok (encodedDataPrefix ++ value) s := hget
        have hdata : encodedDataPrefix ++ value ≠ [] := by simp [encodedDataPrefix]
        have hnodata : encodedDataPrefix ++ value ≠ encodedNoDataValue := by
          simp [encodedDataPrefix, encodedNoDataValue]
        have hcut : (encodedDataPrefix ++ value).dropPrefix? encodedDataPrefix = some value :=
          List.dropPrefix?_eq_some_iff.mpr ⟨_, rfl, by simp⟩
        by_cases hprefix : pathPrefix <+: p.text
        · have hentry : exportEntry t pathPrefix p =
              some ⟨p.text.drop pathPrefix.length, value⟩ := by
            rw [exportEntry, if_pos hprefix, ← hvalue]
            rfl
          rw [List.map_cons, exportEntries, bind_run hraw, if_neg hdata, if_neg hnodata,
            bind_run (ofExcept_run p.encodedKeyToPath_key),
            if_neg (not_not.mpr (List.isPrefixOf_iff_prefix.mpr hprefix)), hcut]
          dsimp only
          rw [ih, List.filterMap_cons_some hentry, List.append_assoc, List.singleton_append]
        · refine hskip (by rw [exportEntry, if_neg hprefix]) ?_
          rw [exportEntries, bind_run hraw, if_neg hdata, if_neg hnodata,
            bind_run (ofExcept_run p.encodedKeyToPath_key),
            if_pos fun h => hprefix (List.isPrefixOf_iff_prefix.mp h)]

/-- What an export from a path lists: the data strictly below it, or all of it from
the root. -/
def exported (t : Tree Segment Bytes) (p : Path) : Tree Segment Bytes :=
  if p = [] then t else below t p

theorem exported_eq_some_iff {p r : Path} {v : Bytes} :
    exported t p r = some v ↔ (r = [] → p = []) ∧ t (p ++ r) = some v := by
  unfold exported below
  by_cases hp : p = []
  · simp [hp]
  · by_cases hr : r = [] <;> simp [hp, hr]

/-- An entry as the source has it. -/
def dataEntry (e : Path × Bytes) : DataEntry := ⟨e.1.text, e.2⟩

/-- The rest of a path that the export visits, if it lies below the export's. -/
def relativePath (p q : Path) : Option Path :=
  if p <+: q ∧ (q = p → p = []) then some (q.drop p.length) else none

theorem relativePath_eq_some_iff {p q r : Path} :
    relativePath p q = some r ↔ q = p ++ r ∧ (r = [] → p = []) := by
  unfold relativePath
  constructor
  · intro h
    split at h
    next hbelow =>
      obtain ⟨⟨r', rfl⟩, hown⟩ := hbelow
      rw [List.drop_left] at h
      cases h
      exact ⟨rfl, fun hr => hown (by rw [hr, List.append_nil])⟩
    next => cases h
  · rintro ⟨rfl, hown⟩
    rw [if_pos ⟨List.prefix_append _ _, fun he => hown (by simpa using he)⟩, List.drop_left]

theorem exportPrefix_isPrefix_iff {p q : Path} :
    exportPrefix p <+: q.text ↔ ∃ r, relativePath p q = some r := by
  simp only [relativePath_eq_some_iff]
  unfold exportPrefix
  by_cases hp : p = []
  · simp [hp]
  · rw [if_neg hp, Path.text_dot_isPrefix_text_iff hp]
    constructor
    · rintro ⟨c, r, rfl⟩
      exact ⟨c :: r, rfl, fun hr => by cases hr⟩
    · rintro ⟨r, rfl, hr⟩
      cases r with
      | nil => exact absurd (hr rfl) hp
      | cons c r => exact ⟨c, r, rfl⟩

theorem drop_exportPrefix {p q r : Path} (h : relativePath p q = some r) :
    q.text.drop (exportPrefix p).length = r.text := by
  obtain ⟨rfl, hown⟩ := relativePath_eq_some_iff.mp h
  unfold exportPrefix
  by_cases hp : p = []
  · simp [hp]
  · have hr : r ≠ [] := fun hr => hp (hown hr)
    have htext : Path.text (p ++ r) = (p.text ++ [pathSeparator]) ++ r.text := by
      rw [Path.text_append hp hr, List.append_assoc, List.singleton_append]
    rw [if_neg hp, htext, List.drop_left]

theorem exportEntry_eq (t : Tree Segment Bytes) (p q : Path) :
    exportEntry t (exportPrefix p) q =
      ((relativePath p q).bind fun r => (t q).map fun v => (r, v)).map dataEntry := by
  unfold exportEntry
  by_cases h : exportPrefix p <+: q.text
  · obtain ⟨r, hr⟩ := exportPrefix_isPrefix_iff.mp h
    rw [if_pos h, hr, drop_exportPrefix hr, Option.bind_some, Option.map_map]
    rfl
  · have hnone : relativePath p q = none := by
      rw [Option.eq_none_iff_forall_ne_some]
      intro r hr
      exact h (exportPrefix_isPrefix_iff.mpr ⟨r, hr⟩)
    rw [if_neg h, hnone]
    rfl

theorem Stores.exists_paths {store : Table Bytes Bytes} (hs : Stores store n) :
    ∃ paths : List Path, iteratorKeys store [] = paths.map Path.key ∧ paths.Nodup ∧
      ∀ p : Path, (n p).isSome → p ∈ paths := by
  have hkeyed : ∀ key ∈ iteratorKeys store [], key ∈ Set.range Path.key := by
    intro key hk
    obtain ⟨p, rfl⟩ := hs.keyed key (mem_iteratorKeys.mp hk).1
    exact ⟨p, rfl⟩
  obtain ⟨paths, hpaths⟩ : iteratorKeys store [] ∈ Set.range (List.map Path.key) := by
    rw [Set.range_list_map]
    exact hkeyed
  refine ⟨paths, hpaths.symm, ?_, fun p hp => ?_⟩
  · have hnodup : (iteratorKeys store []).Nodup :=
      (iteratorKeys_pairwise store []).imp fun hlt => hlt.ne
    rw [← hpaths] at hnodup
    exact hnodup.of_map _
  · have hmem : p.key ∈ iteratorKeys store [] :=
      mem_iteratorKeys.mpr ⟨by rw [hs.has_key]; exact hp, List.nil_prefix⟩
    rw [← hpaths] at hmem
    obtain ⟨q, hq, hkey⟩ := List.mem_map.mp hmem
    exact Path.key_injective hkey ▸ hq

theorem exportStorageFromPrefix_run (p : Path) {r : Except ExportError (List DataEntry)}
    (h : exportEntries (exportPrefix p) (iteratorKeys s.store []) [] s = .ok r s) :
    exportStorageFromPrefix p.text s = .ok r s := by
  unfold exportPrefix at h
  by_cases hp : p = []
  · subst hp
    exact h
  · have hlen : 0 < p.text.length := List.length_pos_iff.mpr (Path.text_ne_nil hp)
    rw [if_neg hp] at h
    rw [exportStorageFromPrefix, if_pos hlen, if_pos hlen, Path.validatePath_text]
    exact h

theorem exportStorageFromPrefix_lists (h : StoresTree s.store t) (p : Path) :
    ∃ entries, exportStorageFromPrefix p.text s = .ok (.ok (entries.map dataEntry)) s ∧
      Lists (exported t p) entries := by
  obtain ⟨n, hs, hn⟩ := h
  obtain ⟨paths, hpaths, hnodup, hall⟩ := hs.exists_paths
  let entryOf : Path → Option (Path × Bytes) := fun q =>
    (relativePath p q).bind fun r => (t q).map fun v => (r, v)
  have hentryOf : ∀ q r v, entryOf q = some (r, v) ↔
      (q = p ++ r ∧ (r = [] → p = [])) ∧ t q = some v := by
    intro q r v
    simp only [entryOf, Option.bind_eq_some_iff, Option.map_eq_some_iff, Prod.mk.injEq,
      relativePath_eq_some_iff]
    constructor
    · rintro ⟨r', hr', v', hv', rfl, rfl⟩
      exact ⟨hr', hv'⟩
    · rintro ⟨hr, hv⟩
      exact ⟨r, hr, v, hv, rfl, rfl⟩
  refine ⟨paths.filterMap entryOf, ?_, ?_, fun r v => ?_⟩
  · apply exportStorageFromPrefix_run
    rw [hpaths, exportEntries_run hs hn, List.nil_append, List.map_filterMap]
    simp only [exportEntry_eq]
    rfl
  · rw [List.map_filterMap]
    refine hnodup.filterMap fun q q' r hq hq' => ?_
    obtain ⟨e, he, rfl⟩ := Option.map_eq_some_iff.mp hq
    obtain ⟨e', he', heq⟩ := Option.map_eq_some_iff.mp hq'
    rw [((hentryOf q _ _).mp he).1.1, ((hentryOf q' _ _).mp he').1.1, heq]
  · rw [List.mem_filterMap, exported_eq_some_iff]
    constructor
    · rintro ⟨q, -, hq⟩
      obtain ⟨⟨rfl, hown⟩, hv⟩ := (hentryOf q r v).mp hq
      exact ⟨hown, hv⟩
    · rintro ⟨hown, hv⟩
      have hlive : (n (p ++ r)).isSome :=
        (hn _).live.mpr (live_of_isSome (by rw [hv]; rfl))
      exact ⟨p ++ r, hall _ hlive, (hentryOf _ r v).mpr ⟨⟨rfl, hown⟩, hv⟩⟩

theorem exportStorage_lists (h : StoresTree s.store t) :
    ∃ entries, exportStorage s = .ok (.ok (entries.map dataEntry)) s ∧ Lists t entries :=
  exportStorageFromPrefix_lists h []

end Export

/-! ## Importing again -/

section Import

variable {s : KeeperState} {t : Tree Segment Bytes} {entries : List (Path × Bytes)}

/-- An entry of an export from a path, back under that path. -/
def underPrefix (pathPrefix : Bytes) (entry : DataEntry) : DataEntry :=
  { entry with path := pathPrefix ++ pathSeparator :: entry.path }

theorem underPrefix_dataEntry {p : Path} {e : Path × Bytes} (hp : p ≠ []) (he : e.1 ≠ []) :
    underPrefix p.text (dataEntry e) = dataEntry (p ++ e.1, e.2) := by
  unfold underPrefix dataEntry
  rw [Path.text_append hp he]

theorem importStorage_lists (h : Lists t entries) :
    Updates (importStorage (entries.map dataEntry)) t {} := by
  have himport := importStorage_updates (s := {}) storesTree_empty entries
  rw [h.foldl_write] at himport
  exact himport

/-- Importing what was exported from below a path, after it was removed, gives the
store without the data of the path itself. -/
theorem importStorage_restores {p : Path} (hp : p ≠ [])
    (h : StoresTree s.store (removeSubtree t p)) (hlists : Lists (exported t p) entries) :
    Updates (importStorage ((entries.map dataEntry).map (underPrefix p.text)))
      (write t p none) s := by
  rw [exported, if_neg hp] at hlists
  have himport := importStorage_updates h (entries.map fun e => (p ++ e.1, e.2))
  rw [hlists.foldl_write_below, List.map_map] at himport
  have hnil : ∀ e ∈ entries, e.1 ≠ [] := by
    intro e he hnil
    have hdata := (hlists.mem_iff e.1 e.2).mp he
    rw [hnil] at hdata
    cases hdata
  have hentries : (entries.map dataEntry).map (underPrefix p.text) =
      entries.map (fun e => dataEntry (p ++ e.1, e.2)) := by
    rw [List.map_map]
    exact List.map_congr_left fun e he => underPrefix_dataEntry hp (hnil e he)
  rw [hentries]
  exact himport

end Import

/-! ## Exports, removals and imports together -/

section Lossless

/-- What the keeper reads at a path. -/
def Reads (s : KeeperState) (p : Path) (value : Option Bytes) : Prop :=
  getEntry p.text s = .ok ⟨p.text, value⟩ s

/-- What removing a path does: it goes with all below it, other paths keep their
data, and a child of theirs stays listed while data remains at or below it. -/
structure Removes (p : Path) (s s' : KeeperState) : Prop where
  removed : ∀ q : Path, p <+: q → s'.store.has q.key = false ∧ Reads s' q none
  kept : ∀ (q : Path) value, ¬ p <+: q → (Reads s' q value ↔ Reads s q value)
  children : ∀ q : Path, ¬ p <+: q → ∃ before after,
    getChildren q.text s = .ok before s ∧ getChildren q.text s' = .ok after s' ∧
    after.Sublist before ∧
    ∀ name ∈ before, name ∈ after ↔ ∃ (c : Segment) (r : Path) (v : Bytes), name = c.val ∧
      q ++ [c] <+: r ∧ ¬ p <+: r ∧ Reads s r (some v)

/-- What exports, removals and imports do to a store. -/
structure Lossless (s : KeeperState) : Prop where
  genesis : ∃ entries s', exportStorage s = .ok (.ok entries) s ∧
    exportGenesis s = .ok (.ok { data := entries }) s ∧
    validateGenesis { data := entries } = .ok () ∧
    initGenesis { data := entries } {} = .ok () s' ∧
    ∀ key, s'.store.lookup key = s.store.lookup key
  descendants : ∀ p : Path, p ≠ [] → ∃ entries,
    exportStorageFromPrefix p.text s = .ok (.ok entries) s ∧
    (entries.map DataEntry.path).Nodup ∧
    ∀ e, e ∈ entries ↔ ∃ r : Path, r ≠ [] ∧ e.path = r.text ∧ Reads s (p ++ r) (some e.value)
  removes : ∀ p : Path, p ≠ [] → ∃ s', removeEntriesWithPrefix p.text s = .ok () s' ∧
    Removes p s s'
  restores : ∀ p : Path, p ≠ [] → ∃ entries s' s'',
    exportStorageFromPrefix p.text s = .ok (.ok entries) s ∧
    removeEntriesWithPrefix p.text s = .ok () s' ∧
    importStorage (entries.map (underPrefix p.text)) s' = .ok () s'' ∧
    (∀ key, s''.store.lookup key =
      (finalState (setStorage ⟨p.text, none⟩) s).store.lookup key) ∧
    ((∀ key, s''.store.lookup key = s.store.lookup key) ↔ Reads s p none)
  empty : removeEntriesWithPrefix [] s = .error .cannotRemoveAllContent s
  invalid : ∀ path err, validatePath path = .error err →
    exportStorageFromPrefix path s = .ok (.error (.invalidPath err)) s ∧
    removeEntriesWithPrefix path s = .error (.invalidPath err) s

variable {s s' : KeeperState} {t : Tree Segment Bytes} {p : Path}

theorem StoresTree.reads_iff (h : StoresTree s.store t) {value : Option Bytes} :
    Reads s p value ↔ t p = value := by
  have hentry := h.shows.entry p
  unfold Reads
  rw [hentry]
  constructor
  · intro heq
    injection heq with hentry
    exact congrArg KVEntry.value hentry
  · rintro rfl
    rfl

theorem live_removeSubtree_iff {q : Path} :
    Live (removeSubtree t p) q ↔ ∃ r v, q <+: r ∧ ¬ p <+: r ∧ t r = some v := by
  unfold Live
  constructor
  · rintro ⟨r, hqr, hdata⟩
    unfold removeSubtree at hdata
    split at hdata
    next => cases hdata
    next hpr =>
      obtain ⟨v, hv⟩ := Option.isSome_iff_exists.mp hdata
      exact ⟨r, v, hqr, hpr, hv⟩
  · rintro ⟨r, v, hqr, hpr, hv⟩
    refine ⟨r, hqr, ?_⟩
    rw [removeSubtree, if_neg hpr, hv]
    rfl

theorem removes_of_storesTree (h : StoresTree s.store t)
    (h' : StoresTree s'.store (removeSubtree t p)) : Removes p s s' where
  removed q hpq := by
    refine ⟨?_, h'.reads_iff.mpr (if_pos hpq)⟩
    rw [← Bool.not_eq_true, h'.shows.keys]
    rintro ⟨r, hkey, hlive⟩
    rw [← Path.key_injective hkey] at hlive
    exact not_live_removeSubtree hpq hlive
  kept q value hpq := by
    rw [h.reads_iff, h'.reads_iff, removeSubtree, if_neg hpq]
  children q hpq := by
    obtain ⟨before, hbefore, hsorted, hmem⟩ := h.shows.children q
    obtain ⟨after, hafter, hsorted', hmem'⟩ := h'.shows.children q
    have hstays : ∀ name, name ∈ after ↔ ∃ (c : Segment) (r : Path) (v : Bytes), name = c.val ∧
        q ++ [c] <+: r ∧ ¬ p <+: r ∧ Reads s r (some v) := by
      intro name
      simp only [hmem', live_removeSubtree_iff, h.reads_iff]
      constructor
      · rintro ⟨c, hname, r, v, hbelow⟩
        exact ⟨c, r, v, hname, hbelow⟩
      · rintro ⟨c, r, v, hname, hbelow⟩
        exact ⟨c, hname, r, v, hbelow⟩
    have hsubset : after ⊆ before := by
      intro name hname
      obtain ⟨c, r, v, hc, hcr, -, hread⟩ := (hstays name).mp hname
      have hdata : (t r).isSome := by
        rw [h.reads_iff.mp hread]
        rfl
      exact (hmem name).mpr ⟨c, hc, r, hcr, hdata⟩
    have hnodup : after.Nodup := hsorted'.imp fun hlt => hlt.ne
    refine ⟨before, after, hbefore, hafter, ?_, fun name _ => hstays name⟩
    exact List.sublist_of_subperm_of_pairwise (hnodup.subperm hsubset) hsorted' hsorted

theorem validateGenesis_dataEntry (entries : List (Path × Bytes)) :
    validateGenesis { data := entries.map dataEntry } = .ok () := by
  unfold validateGenesis
  induction entries with
  | nil => rfl
  | cons e entries ih =>
    change (match validatePath e.1.text with
      | .ok () => Except.ok ()
      | .error err => .error (e.1.text, err)) >>= (fun _ => _) = _
    rw [Path.validatePath_text]
    exact ih

theorem descendants_of_storesTree (h : StoresTree s.store t) (hp : p ≠ []) : ∃ entries,
    exportStorageFromPrefix p.text s = .ok (.ok entries) s ∧
    (entries.map DataEntry.path).Nodup ∧
    ∀ e, e ∈ entries ↔ ∃ r : Path, r ≠ [] ∧ e.path = r.text ∧ Reads s (p ++ r) (some e.value) := by
  obtain ⟨entries, hexport, hlists⟩ := exportStorageFromPrefix_lists h p
  refine ⟨_, hexport, ?_, fun e => ?_⟩
  · have hpaths : (entries.map dataEntry).map DataEntry.path =
        (entries.map Prod.fst).map Path.text := by
      simp [List.map_map, Function.comp_def, dataEntry]
    rw [hpaths]
    exact hlists.nodup.map fun _ _ => Path.text_injective
  · simp only [h.reads_iff, List.mem_map]
    constructor
    · rintro ⟨⟨r, v⟩, hmem, rfl⟩
      obtain ⟨hown, hdata⟩ := exported_eq_some_iff.mp ((hlists.mem_iff r v).mp hmem)
      exact ⟨r, fun hr => hp (hown hr), rfl, hdata⟩
    · rintro ⟨r, hr, hpath, hdata⟩
      refine ⟨(r, e.value), (hlists.mem_iff r e.value).mpr ?_, ?_⟩
      · exact exported_eq_some_iff.mpr ⟨fun hnil => absurd hnil hr, hdata⟩
      · unfold dataEntry
        rw [← hpath]

theorem restores_of_storesTree (h : StoresTree s.store t) (hp : p ≠ []) :
    ∃ entries s' s'', exportStorageFromPrefix p.text s = .ok (.ok entries) s ∧
      removeEntriesWithPrefix p.text s = .ok () s' ∧
      importStorage (entries.map (underPrefix p.text)) s' = .ok () s'' ∧
      (∀ key, s''.store.lookup key =
        (finalState (setStorage ⟨p.text, none⟩) s).store.lookup key) ∧
      ((∀ key, s''.store.lookup key = s.store.lookup key) ↔ Reads s p none) := by
  obtain ⟨entries, hexport, hlists⟩ := exportStorageFromPrefix_lists h p
  obtain ⟨_, s', hremove, hs'⟩ := removeEntriesWithPrefix_updates h hp
  obtain ⟨_, s'', himport, hs''⟩ := importStorage_restores hp hs' hlists
  obtain ⟨store, hset, hstore⟩ := setStorage_writes h p none
  refine ⟨_, s', s'', hexport, hremove, himport, fun key => ?_, ?_⟩
  · rw [finalState, hset]
    exact hs''.lookup_eq hstore key
  · rw [h.reads_iff]
    constructor
    · intro hsame
      have hsame : write t p none = t := hs''.data_eq (h.congr hsame)
      rw [← hsame, write_self]
    · intro hnone key
      have hsame : write t p none = t := by
        rw [← hnone]
        exact Function.update_eq_self p t
      rw [hsame] at hs''
      exact hs''.lookup_eq h key

theorem genesis_of_storesTree (h : StoresTree s.store t) : ∃ entries s',
    exportStorage s = .ok (.ok entries) s ∧
    exportGenesis s = .ok (.ok { data := entries }) s ∧
    validateGenesis { data := entries } = .ok () ∧
    initGenesis { data := entries } {} = .ok () s' ∧
    ∀ key, s'.store.lookup key = s.store.lookup key := by
  obtain ⟨entries, hexport, hlists⟩ := exportStorage_lists h
  obtain ⟨_, s', himport, hs'⟩ := importStorage_lists hlists
  refine ⟨_, s', hexport, ?_, validateGenesis_dataEntry entries, himport, hs'.lookup_eq h⟩
  rw [exportGenesis, bind_run hexport]
  rfl

theorem invalid_prefix {path : Bytes} {err : PathError} (herr : validatePath path = .error err)
    (s : KeeperState) : exportStorageFromPrefix path s = .ok (.error (.invalidPath err)) s ∧
      removeEntriesWithPrefix path s = .error (.invalidPath err) s := by
  have hlen : 0 < path.length := by
    apply List.length_pos_iff.mpr
    rintro rfl
    cases herr
  constructor
  · rw [exportStorageFromPrefix, if_pos hlen, herr]
    rfl
  · rw [removeEntriesWithPrefix, if_neg hlen.ne', herr]
    rfl

/-- After any sequence of calls, exports and imports lose nothing, but an export
from below a path leaves out the data of the path itself. -/
theorem vstorage_lossless (json : CellJSON) (calls : List Call) :
    Lossless (runCalls json calls) := by
  have h := runCalls_storesTree json calls
  constructor
  case genesis => exact genesis_of_storesTree h
  case descendants => exact fun p hp => descendants_of_storesTree h hp
  case removes =>
    intro p hp
    obtain ⟨_, s', hremove, hs'⟩ := removeEntriesWithPrefix_updates h hp
    exact ⟨s', hremove, removes_of_storesTree h hs'⟩
  case restores => exact fun p hp => restores_of_storesTree h hp
  case empty => rfl
  case invalid => exact fun path err herr => invalid_prefix herr _

/-- With data at both `a` and `a.b`, what is exported from `a`, removed and imported
again lacks the data of `a`. -/
theorem restore_loses_own_data :
    ¬ ∀ (json : CellJSON) (calls : List Call) (p : Path) (entries : List DataEntry)
      (s' s'' : KeeperState),
      exportStorageFromPrefix p.text (runCalls json calls) =
        .ok (.ok entries) (runCalls json calls) →
      removeEntriesWithPrefix p.text (runCalls json calls) = .ok () s' →
      importStorage (entries.map (underPrefix p.text)) s' = .ok () s'' →
      ∀ key, s''.store.lookup key = (runCalls json calls).store.lookup key := by
  intro hrestores
  let json : CellJSON := { marshal := fun _ => .ok [], unmarshal := fun _ => ⟨[], []⟩ }
  let a : Segment := ⟨['a'], List.cons_ne_nil _ _, List.forall_mem_singleton.mpr rfl⟩
  let b : Segment := ⟨['b'], List.cons_ne_nil _ _, List.forall_mem_singleton.mpr rfl⟩
  let calls : List Call := [.setStorage [a] (some ['x']), .setStorage [a, b] (some ['y'])]
  have h := runCalls_storesTree json calls
  have hdata : applyCalls json calls [a] = some ['x'] := rfl
  obtain ⟨entries, s', s'', hexport, hremove, himport, -, hiff⟩ :=
    restores_of_storesTree (p := [a]) h (by simp)
  have hnone := hiff.mp (hrestores json calls [a] entries s' s'' hexport hremove himport)
  rw [h.reads_iff, hdata] at hnone
  cases hnone

end Lossless

end AgoricSdk.Vstorage
