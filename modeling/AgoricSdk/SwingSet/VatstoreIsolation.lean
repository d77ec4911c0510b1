import AgoricSdk.Lib.OrderedText
import AgoricSdk.SwingSet.Vatstore

/-!
Each vat has an ordered map of its own in the key space that all share. What it reads is decided
by what it has written, as long as it writes no empty strings, which are read as absent.
-/

namespace AgoricSdk.Vatstore

open DelimitedText OrderedMap OrderedText TransitionSystem
open SwingSet (JSString VatID VatKey vatIDKey decimal decimal_inj decimal_isDigit)

section Keys

variable {vatID vatID' : VatID} {key key' : JSString}

theorem dot_notMem_vatIDKey (vatID : VatID) : '.' ∉ vatIDKey vatID := by
  intro h
  rcases List.mem_cons.mp h with h | h
  · cases h
  · exact absurd (decimal_isDigit h) (by decide)

theorem vatIDKey_dot_inj {rest rest' : JSString}
    (h : vatIDKey vatID ++ '.' :: rest = vatIDKey vatID' ++ '.' :: rest') :
    vatID = vatID' ∧ rest = rest' := by
  have hcut := congrArg (cutAt '.') h
  rw [cutAt_append (dot_notMem_vatIDKey _), cutAt_append (dot_notMem_vatIDKey _)] at hcut
  obtain ⟨hid, hrest⟩ := Prod.mk.inj (Option.some.inj hcut)
  exact ⟨decimal_inj (List.cons.inj hid).2, hrest⟩

theorem vatstoreKeyKey_eq (vatID : VatID) (key : JSString) :
    vatstoreKeyKey vatID key = vatIDKey vatID ++ '.' :: 'v' :: 's' :: '.' :: key := by
  unfold vatstoreKeyKey vatstorePrefix
  rw [List.append_assoc]
  rfl

theorem vatstoreKeyKey_inj :
    vatstoreKeyKey vatID key = vatstoreKeyKey vatID' key' ↔ vatID = vatID' ∧ key = key' := by
  constructor
  · intro h
    rw [vatstoreKeyKey_eq, vatstoreKeyKey_eq] at h
    obtain ⟨hid, hrest⟩ := vatIDKey_dot_inj h
    exact ⟨hid, (List.append_right_inj ['v', 's', '.']).mp hrest⟩
  · rintro ⟨rfl, rfl⟩
    rfl

theorem KeyFamily.start_cases (family : KeyFamily) :
    (∃ c cs, family.start = c :: cs ∧ c ≠ 'v') ∨
      ∃ c cs, family.start = 'v' :: c :: cs ∧ c.isDigit = false := by
  cases family with
  | version => exact .inr ⟨_, _, rfl, by decide⟩
  | vat => exact .inr ⟨_, _, rfl, by decide⟩
  | vats => exact .inr ⟨_, _, rfl, by decide⟩
  | _ => exact .inl ⟨_, _, rfl, by decide⟩

theorem KeyFamily.start_ne (family : KeyFamily) (rest : JSString) (vatID : VatID)
    (key : JSString) : family.start ++ rest ≠ vatIDKey vatID ++ key := by
  obtain ⟨c, cs, hdecimal⟩ :=
    List.exists_cons_of_ne_nil (Nat.toDigits_ne_nil (b := 10) (n := vatID))
  have hc : c.isDigit = true := by
    apply decimal_isDigit (n := vatID)
    unfold decimal
    rw [hdecimal]
    exact List.mem_cons_self
  unfold vatIDKey decimal
  rw [hdecimal]
  intro h
  rcases family.start_cases with ⟨c', cs', heq, hne⟩ | ⟨c', cs', heq, hdigit⟩
  · rw [heq] at h
    exact hne (List.cons.inj h).1
  · rw [heq] at h
    have hsame := (List.cons.inj (List.cons.inj h).2).1
    rw [hsame, hc] at hdigit
    cases hdigit

theorem KernelKey.text_ne (kernelKey : KernelKey) (vatID : VatID) (key : JSString) :
    kernelKey.text ≠ vatstoreKeyKey vatID key := by
  intro h
  rw [vatstoreKeyKey_eq] at h
  cases kernelKey with
  | other family rest => exact family.start_ne rest vatID _ h
  | ofVat vatID' vatKey =>
    obtain ⟨-, hsuffix⟩ := vatIDKey_dot_inj h
    obtain ⟨vatKey, hne⟩ := vatKey
    cases vatKey with
    | vatstore k => exact hne k rfl
    | _ => simp [VatKey.suffix] at hsuffix

theorem vatstoreKeyInRange_iff {dbKey : JSString} : vatstoreKeyInRange vatID dbKey = true ↔
    ∃ key, dbKey = vatstoreKeyKey vatID key := by
  unfold vatstoreKeyInRange
  rw [List.isPrefixOf_iff_prefix]
  constructor
  · rintro ⟨key, rfl⟩
    exact ⟨key, rfl⟩
  · rintro ⟨key, rfl⟩
    exact List.prefix_append _ _

theorem descopeVatstoreKey_eq (vatID : VatID) (key : JSString) :
    descopeVatstoreKey vatID (vatstoreKeyKey vatID key) = key := List.drop_left

theorem vatstoreKeyKey_lt :
    vatstoreKeyKey vatID key < vatstoreKeyKey vatID key' ↔ key < key' :=
  append_lt_append_left _

end Keys

section Reads

/-- The keys of a vat in the store. -/
def ownKeys (kvStore : KVStore) (vatID : VatID) : Finset JSString :=
  ((kvStore.keys.filter (vatstoreKeyInRange vatID)).map (descopeVatstoreKey vatID)).toFinset

variable {kvStore kvStore' : KVStore} {vatID : VatID} {key : JSString}

theorem mem_ownKeys :
    key ∈ ownKeys kvStore vatID ↔ kvStore.has (vatstoreKeyKey vatID key) = true := by
  unfold ownKeys
  rw [List.mem_toFinset, List.mem_map]
  constructor
  · rintro ⟨dbKey, hmem, rfl⟩
    obtain ⟨hmem, hrange⟩ := List.mem_filter.mp hmem
    obtain ⟨key, rfl⟩ := vatstoreKeyInRange_iff.mp hrange
    rw [descopeVatstoreKey_eq]
    exact Table.mem_keys_iff.mp hmem
  · intro h
    exact ⟨vatstoreKeyKey vatID key, List.mem_filter.mpr ⟨Table.mem_keys_iff.mpr h,
      vatstoreKeyInRange_iff.mpr ⟨key, rfl⟩⟩, descopeVatstoreKey_eq vatID key⟩

theorem ne_nil_of_lt {xs ys : JSString} (h : xs < ys) : ys ≠ [] := by
  rintro rfl
  cases h

theorem orNull_of_ne {value : JSString} (h : value ≠ []) : orNull (some value) = some value := by
  unfold orNull
  rw [Option.filter_some, if_pos (decide_eq_true h)]

theorem vatstoreGetNextKey_eq (kvStore : KVStore) (vatID : VatID) (priorKey : JSString) :
    vatstoreGetNextKey kvStore vatID priorKey = next (ownKeys kvStore vatID) priorKey := by
  symm
  apply IsNext.next_eq
  unfold vatstoreGetNextKey getNextKey
  have hnext := isNext_next kvStore.keys.toFinset (vatstoreKeyKey vatID priorKey)
  have hown : ∀ key ∈ ownKeys kvStore vatID, vatstoreKeyKey vatID key ∈ kvStore.keys.toFinset :=
    fun key hkey => List.mem_toFinset.mpr (Table.mem_keys_iff.mpr (mem_ownKeys.mp hkey))
  cases hresult : next kvStore.keys.toFinset (vatstoreKeyKey vatID priorKey) with
  | none =>
    rw [hresult] at hnext
    intro key hkey
    apply le_of_not_gt
    intro hlt
    exact absurd (vatstoreKeyKey_lt.mpr hlt) (not_lt_of_ge (hnext _ (hown key hkey)))
  | some dbKey =>
    rw [hresult] at hnext
    obtain ⟨hmem, hlt, hmin⟩ := hnext
    rw [orNull_of_ne (ne_nil_of_lt hlt)]
    dsimp only
    split
    case isTrue hrange =>
      obtain ⟨key, rfl⟩ := vatstoreKeyInRange_iff.mp hrange
      rw [descopeVatstoreKey_eq]
      refine ⟨mem_ownKeys.mpr (Table.mem_keys_iff.mp (List.mem_toFinset.mp hmem)),
        vatstoreKeyKey_lt.mp hlt, ?_⟩
      intro key' hkey' hlt'
      apply le_of_not_gt
      intro hless
      exact absurd (vatstoreKeyKey_lt.mpr hless)
        (not_lt_of_ge (hmin _ (hown key' hkey') (vatstoreKeyKey_lt.mpr hlt')))
    case isFalse hrange =>
      intro key hkey
      apply le_of_not_gt
      intro hlt'
      have hle := hmin _ (hown key hkey) (vatstoreKeyKey_lt.mpr hlt')
      rcases lt_or_eq_of_le hle with hless | rfl
      · obtain ⟨more, rfl, -, -⟩ := eq_append_of_between hlt hless
        exact hrange (vatstoreKeyInRange_iff.mpr ⟨more, rfl⟩)
      · exact hrange (vatstoreKeyInRange_iff.mpr ⟨key, rfl⟩)

theorem orNull_next (keys : Finset JSString) (priorKey : JSString) :
    orNull (next keys priorKey) = next keys priorKey := by
  have hnext := isNext_next keys priorKey
  cases h : next keys priorKey with
  | none => rfl
  | some key =>
    rw [h] at hnext
    exact orNull_of_ne (ne_nil_of_lt hnext.2.1)

theorem orNull_orNull (value : Option JSString) : orNull (orNull value) = orNull value := by
  cases value with
  | none => rfl
  | some value =>
    by_cases h : value = []
    · subst h
      rfl
    · rw [orNull_of_ne h, orNull_of_ne h]

theorem vatSyscallHandler_result (kvStore : KVStore) (vatID : VatID) (vso : VatstoreSyscall) :
    (vatSyscallHandler kvStore vatID vso).1 =
      match vso with
      | .vatstoreGet key => orNull (kvStore.lookup (vatstoreKeyKey vatID key))
      | .vatstoreGetNextKey priorKey => next (ownKeys kvStore vatID) priorKey
      | .vatstoreSet .. | .vatstoreDelete _ => none := by
  cases vso with
  | vatstoreGet key => exact orNull_orNull _
  | vatstoreSet key value => rfl
  | vatstoreGetNextKey priorKey =>
    change orNull (vatstoreGetNextKey kvStore vatID priorKey) = _
    rw [vatstoreGetNextKey_eq, orNull_next]
  | vatstoreDelete key => rfl

theorem ownKeys_congr (h : ∀ key, kvStore'.lookup (vatstoreKeyKey vatID key) =
    kvStore.lookup (vatstoreKeyKey vatID key)) :
    ownKeys kvStore' vatID = ownKeys kvStore vatID := by
  ext key
  rw [mem_ownKeys, mem_ownKeys]
  unfold Table.has
  rw [h]

theorem vatSyscallHandler_unread (h : ∀ key, kvStore'.lookup (vatstoreKeyKey vatID key) =
    kvStore.lookup (vatstoreKeyKey vatID key)) (vso : VatstoreSyscall) :
    (vatSyscallHandler kvStore' vatID vso).1 = (vatSyscallHandler kvStore vatID vso).1 := by
  rw [vatSyscallHandler_result, vatSyscallHandler_result, ownKeys_congr h]
  cases vso with
  | vatstoreGet key => exact congrArg orNull (h key)
  | _ => rfl

theorem vatSyscallHandler_unchanged {dbKey : JSString}
    (h : ∀ key, dbKey ≠ vatstoreKeyKey vatID key) (vso : VatstoreSyscall) :
    (vatSyscallHandler kvStore vatID vso).2.lookup dbKey = kvStore.lookup dbKey := by
  cases vso with
  | vatstoreGet key => rfl
  | vatstoreGetNextKey priorKey => rfl
  | vatstoreSet key value =>
    change (kvStore.insert (vatstoreKeyKey vatID key) value).lookup dbKey = _
    rw [Table.lookup_insert, if_neg (h key)]
  | vatstoreDelete key =>
    change (kvStore.erase (vatstoreKeyKey vatID key)).lookup dbKey = _
    rw [Table.lookup_erase, if_neg (h key)]

end Reads

section OwnMaps

/-- What a syscall does to an ordered map. -/
def ownStep (own : KVStore) : VatstoreSyscall → Option JSString × KVStore
  | .vatstoreGet key => (own.lookup key, own)
  | .vatstoreSet key value => (none, own.insert key value)
  | .vatstoreGetNextKey priorKey => (next own.keys.toFinset priorKey, own)
  | .vatstoreDelete key => (none, own.erase key)

def ownMap (vsos : List VatstoreSyscall) : KVStore :=
  vsos.foldl (fun own vso => (ownStep own vso).2) ∅

def ownResults : KVStore → List VatstoreSyscall → List (Option JSString)
  | _, [] => []
  | own, vso :: vsos => (ownStep own vso).1 :: ownResults (ownStep own vso).2 vsos

theorem ownMap_append (vsos : List VatstoreSyscall) (vso : VatstoreSyscall) :
    ownMap (vsos ++ [vso]) = (ownStep (ownMap vsos) vso).2 := by
  unfold ownMap
  rw [List.foldl_append]
  rfl

theorem ownResults_append (own : KVStore) (vsos : List VatstoreSyscall) (vso : VatstoreSyscall) :
    ownResults own (vsos ++ [vso]) = ownResults own vsos ++
      [(ownStep (vsos.foldl (fun own vso => (ownStep own vso).2) own) vso).1] := by
  induction vsos generalizing own with
  | nil => rfl
  | cons first vsos ih =>
    rw [List.cons_append, ownResults, ownResults, ih]
    rfl

variable {kvStore : KVStore} {vatID : VatID} {own : KVStore}

/-- The store holds the map of the vat under its keys. -/
def Holds (kvStore : KVStore) (vatID : VatID) (own : KVStore) : Prop :=
  ∀ key, kvStore.lookup (vatstoreKeyKey vatID key) = own.lookup key

/-- No key of the map has an empty value. -/
def Nonempty (own : KVStore) : Prop := ∀ key, own.lookup key ≠ some []

theorem Holds.ownKeys (h : Holds kvStore vatID own) :
    ownKeys kvStore vatID = own.keys.toFinset := by
  ext key
  rw [mem_ownKeys, List.mem_toFinset, Table.mem_keys_iff]
  unfold Table.has
  rw [h]

theorem Holds.syscall (h : Holds kvStore vatID own) (hown : Nonempty own) (vso : VatstoreSyscall) :
    (vatSyscallHandler kvStore vatID vso).1 = (ownStep own vso).1 ∧
      Holds (vatSyscallHandler kvStore vatID vso).2 vatID (ownStep own vso).2 := by
  constructor
  · rw [vatSyscallHandler_result]
    cases vso with
    | vatstoreSet key value => rfl
    | vatstoreDelete key => rfl
    | vatstoreGetNextKey priorKey => exact congrArg (next · priorKey) h.ownKeys
    | vatstoreGet key =>
      change orNull (kvStore.lookup (vatstoreKeyKey vatID key)) = own.lookup key
      rw [h]
      cases hvalue : own.lookup key with
      | none => rfl
      | some value =>
        apply orNull_of_ne
        rintro rfl
        exact hown key hvalue
  · intro key
    cases vso with
    | vatstoreGet key' => exact h key
    | vatstoreGetNextKey priorKey => exact h key
    | vatstoreSet key' value =>
      change (kvStore.insert (vatstoreKeyKey vatID key') value).lookup _ =
        (own.insert key' value).lookup key
      rw [Table.lookup_insert, Table.lookup_insert, h]
      simp only [vatstoreKeyKey_inj, true_and]
    | vatstoreDelete key' =>
      change (kvStore.erase (vatstoreKeyKey vatID key')).lookup _ = (own.erase key').lookup key
      rw [Table.lookup_erase, Table.lookup_erase, h]
      simp only [vatstoreKeyKey_inj, true_and]

end OwnMaps

section Promises

/-- The iteration from a prior key, with at most the given number of syscalls; `none` where it has
not ended by then. -/
def iterate (kvStore : KVStore) (vatID : VatID) : ℕ → JSString → Option (List JSString)
  | 0, _ => none
  | n + 1, priorKey =>
    match (vatSyscallHandler kvStore vatID (.vatstoreGetNextKey priorKey)).1 with
    | none => some []
    | some key => (iterate kvStore vatID n key).map (key :: ·)

/-- The map that a vat has made of its vatstore. -/
def Database.own (db : Database) (vatID : VatID) : KVStore :=
  ownMap ((db.transcript vatID).map (·.s))

/-- Each vatstore is a private ordered map. -/
structure PrivateMaps (db : Database) : Prop where
  /-- The results are those of the vat's own map under its own writes. -/
  reads : ∀ vatID, (db.transcript vatID).map (·.r) =
    ownResults ∅ ((db.transcript vatID).map (·.s))
  iterates : ∀ vatID ∉ db.terminated, ∀ priorKey, ∃ n,
    iterate db.kvStore vatID n priorKey = some (after (db.own vatID).keys.toFinset priorKey)
  agrees : ∀ vatID ∉ db.terminated, ∀ priorKey key, priorKey < key →
    ((vatSyscallHandler db.kvStore vatID (.vatstoreGet key)).1.isSome = true ↔
      ∃ n keys, iterate db.kvStore vatID n priorKey = some keys ∧ key ∈ keys)
  unread : ∀ vatID vso (kvStore : KVStore), (∀ key, kvStore.lookup (vatstoreKeyKey vatID key) =
      db.kvStore.lookup (vatstoreKeyKey vatID key)) →
    (vatSyscallHandler kvStore vatID vso).1 = (vatSyscallHandler db.kvStore vatID vso).1
  unchanged : ∀ vatID vso dbKey, (∀ key, dbKey ≠ vatstoreKeyKey vatID key) →
    (vatSyscallHandler db.kvStore vatID vso).2.lookup dbKey = db.kvStore.lookup dbKey
  replays : ∀ vatID, replay (db.transcript vatID) ((db.transcript vatID).map (·.s)) =
    some ((db.transcript vatID).map (·.r))

/-- No empty string is written to a vatstore. -/
def writesNonempty (_ : Kernel) : Activity → Prop
  | .syscall _ (.vatstoreSet _ value) => value ≠ []
  | _ => True

instance (k : Kernel) (a : Activity) : Decidable (writesNonempty k a) := by
  unfold writesNonempty
  split <;> infer_instance

variable {kvStore : KVStore} {vatID : VatID} {priorKey : JSString}

theorem iterate_eq {keys : List JSString} (h : after (ownKeys kvStore vatID) priorKey = keys) :
    ∀ n, iterate kvStore vatID n priorKey = if keys.length < n then some keys else none := by
  induction keys generalizing priorKey with
  | nil =>
    intro n
    cases n with
    | zero => rfl
    | succ n =>
      rw [iterate, vatSyscallHandler_result]
      dsimp only
      rw [next_of_after_nil h]
      rfl
  | cons key keys ih =>
    intro n
    obtain ⟨hnext, hrest⟩ := next_of_after_cons h
    cases n with
    | zero => rfl
    | succ n =>
      rw [iterate, vatSyscallHandler_result]
      dsimp only
      rw [hnext]
      dsimp only
      rw [ih hrest n]
      simp only [List.length_cons, Nat.add_lt_add_iff_right]
      split <;> rfl

theorem replay_self (entries : List TranscriptSyscall) :
    replay entries (entries.map (·.s)) = some (entries.map (·.r)) := by
  induction entries with
  | nil => rfl
  | cons entry entries ih =>
    rw [List.map_cons, replay, if_pos rfl, ih]
    rfl

/-- What the activity of the kernel keeps of a database. -/
structure DatabaseInv (db : Database) : Prop where
  results : ∀ vatID, (db.transcript vatID).map (·.r) =
    ownResults ∅ ((db.transcript vatID).map (·.s))
  nonempty : ∀ vatID, Nonempty (db.own vatID)
  holds : ∀ vatID ∉ db.terminated, Holds db.kvStore vatID (db.own vatID)

theorem DatabaseInv.privateMaps {db : Database} (h : DatabaseInv db) : PrivateMaps db where
  reads := h.results
  iterates vatID hvat priorKey := by
    have hiterate := iterate_eq (rfl : after (ownKeys db.kvStore vatID) priorKey = _)
    rw [(h.holds vatID hvat).ownKeys] at hiterate
    refine ⟨_, (hiterate _).trans (if_pos (Nat.lt_succ_self _))⟩
  agrees vatID hvat priorKey key hlt := by
    have hiterate := iterate_eq (rfl : after (ownKeys db.kvStore vatID) priorKey = _)
    have hget := ((h.holds vatID hvat).syscall (h.nonempty vatID) (.vatstoreGet key)).1
    rw [hget]
    change ((db.own vatID).lookup key).isSome = true ↔ _
    have hmem : key ∈ after (ownKeys db.kvStore vatID) priorKey ↔
        ((db.own vatID).lookup key).isSome = true := by
      rw [mem_after, (h.holds vatID hvat).ownKeys, List.mem_toFinset, Table.mem_keys_iff]
      exact and_iff_left hlt
    rw [← hmem]
    constructor
    · intro hin
      exact ⟨_, _, (hiterate _).trans (if_pos (Nat.lt_succ_self _)), hin⟩
    · rintro ⟨n, keys, hkeys, hin⟩
      rw [hiterate n] at hkeys
      split at hkeys
      case isTrue =>
        cases hkeys
        exact hin
      case isFalse => cases hkeys
  unread _ vso _ hsame := vatSyscallHandler_unread hsame vso
  unchanged _ vso _ hother := vatSyscallHandler_unchanged hother vso
  replays vatID := replay_self _

end Promises

section Steps

variable {db : Database} {vatID : VatID}

theorem transcript_append (db : Database) (vatID vatID' : VatID) (entry : TranscriptSyscall) :
    Database.transcript { db with recorded := db.recorded ++ [(vatID, entry)] } vatID' =
      db.transcript vatID' ++ if vatID = vatID' then [entry] else [] := by
  unfold Database.transcript
  rw [List.filter_append, List.map_append]
  split
  case isTrue heq => simp [heq]
  case isFalse hne => simp [hne]

theorem Nonempty.step {own : KVStore} (h : Nonempty own) {vso : VatstoreSyscall}
    (hvalue : ∀ key value, vso = .vatstoreSet key value → value ≠ []) :
    Nonempty (ownStep own vso).2 := by
  intro key
  cases vso with
  | vatstoreGet key' => exact h key
  | vatstoreGetNextKey priorKey => exact h key
  | vatstoreSet key' value =>
    change (own.insert key' value).lookup key ≠ _
    rw [Table.lookup_insert]
    split
    · exact fun heq => hvalue key' value rfl (Option.some.inj heq)
    · exact h key
  | vatstoreDelete key' =>
    change (own.erase key').lookup key ≠ _
    rw [Table.lookup_erase]
    split
    · exact nofun
    · exact h key

theorem DatabaseInv.syscall (h : DatabaseInv db) (hvat : vatID ∉ db.terminated)
    {vso : VatstoreSyscall} (hvalue : ∀ key value, vso = .vatstoreSet key value → value ≠ []) :
    DatabaseInv { db with
      kvStore := (vatSyscallHandler db.kvStore vatID vso).2
      recorded :=
        db.recorded ++ [(vatID, ⟨vso, (vatSyscallHandler db.kvStore vatID vso).1⟩)] } := by
  obtain ⟨hresult, hholds⟩ := (h.holds vatID hvat).syscall (h.nonempty vatID) vso
  have hown : ∀ vatID', Database.own { db with
      kvStore := (vatSyscallHandler db.kvStore vatID vso).2
      recorded := db.recorded ++ [(vatID, ⟨vso, (vatSyscallHandler db.kvStore vatID vso).1⟩)] }
        vatID' = if vatID = vatID' then (ownStep (db.own vatID') vso).2 else db.own vatID' := by
    intro vatID'
    have htranscript := transcript_append db vatID vatID'
      ⟨vso, (vatSyscallHandler db.kvStore vatID vso).1⟩
    unfold Database.own
    change ownMap ((Database.transcript { db with recorded := _ } vatID').map _) = _
    rw [htranscript]
    split
    case isTrue => rw [List.map_append, List.map_singleton, ownMap_append]
    case isFalse => rw [List.append_nil]
  constructor
  case results =>
    intro vatID'
    change (Database.transcript { db with recorded := _ } vatID').map _ =
      ownResults ∅ ((Database.transcript { db with recorded := _ } vatID').map _)
    rw [transcript_append]
    split
    case isFalse =>
      rw [List.append_nil]
      exact h.results vatID'
    case isTrue heq =>
      subst heq
      rw [List.map_append, List.map_append, List.map_singleton, List.map_singleton,
        ownResults_append, h.results, hresult]
      rfl
  case nonempty =>
    intro vatID'
    rw [hown]
    split
    · exact (h.nonempty vatID').step hvalue
    · exact h.nonempty vatID'
  case holds =>
    intro vatID' hvat'
    rw [hown]
    split
    case isTrue heq =>
      subst heq
      exact hholds
    case isFalse hne =>
      intro key
      refine (vatSyscallHandler_unchanged (fun key' heq => ?_) vso).trans (h.holds vatID' hvat' key)
      exact hne (vatstoreKeyKey_inj.mp heq).1.symm

theorem DatabaseInv.other (h : DatabaseInv db) {kvStore : KVStore} {terminated : List VatID}
    (hterminated : ∀ vatID ∈ db.terminated, vatID ∈ terminated)
    (hstore : ∀ vatID ∉ terminated, ∀ key, kvStore.lookup (vatstoreKeyKey vatID key) =
      db.kvStore.lookup (vatstoreKeyKey vatID key)) :
    DatabaseInv { db with kvStore, terminated } where
  results := h.results
  nonempty := h.nonempty
  holds vatID hvat key :=
    (hstore vatID hvat key).trans (h.holds vatID (fun hin => hvat (hterminated vatID hin)) key)

theorem deletePrefixed_lookup {start dbKey : JSString} (h : ¬ List.IsPrefix start dbKey) (n : ℕ)
    (key : JSString) (kvStore : KVStore) :
    (deletePrefixed start n key kvStore).lookup dbKey = kvStore.lookup dbKey := by
  induction n generalizing key kvStore with
  | zero => rfl
  | succ n ih =>
    rw [deletePrefixed]
    split
    case h_1 => rfl
    case h_2 next hnext =>
      split
      case isFalse => rfl
      case isTrue hstart =>
        rw [ih, Table.lookup_erase, if_neg]
        rintro rfl
        exact h (List.isPrefixOf_iff_prefix.mp hstart)

theorem cleanup_lookup {vatID' : VatID} (hne : vatID ≠ vatID') (kvStore : KVStore)
    (budget : Option ℕ) (key : JSString) :
    (cleanupAfterTerminatedVat kvStore vatID budget).lookup (vatstoreKeyKey vatID' key) =
      kvStore.lookup (vatstoreKeyKey vatID' key) := by
  apply deletePrefixed_lookup
  rintro ⟨rest, hrest⟩
  rw [vatstoreKeyKey_eq, List.append_assoc] at hrest
  exact hne (vatIDKey_dot_inj hrest).1

theorem DatabaseInv.step {k t : Kernel} (h : DatabaseInv k.database)
    (hsaved : DatabaseInv k.savepoint)
    {a : Activity} (hok : writesNonempty k a) (hstep : k.step a = some t) :
    DatabaseInv t.database ∧ DatabaseInv t.savepoint := by
  cases a with
  | syscall vatID vso =>
    obtain ⟨hvat, heq⟩ := Option.ite_none_left_eq_some.mp hstep
    cases heq
    refine ⟨h.syscall hvat ?_, hsaved⟩
    rintro key value rfl
    exact hok
  | set key value =>
    cases hstep
    refine ⟨h.other (fun _ hin => hin) fun vatID _ key' => ?_, hsaved⟩
    rw [Table.lookup_insert, if_neg (key.text_ne vatID key').symm]
  | delete key =>
    cases hstep
    refine ⟨h.other (fun _ hin => hin) fun vatID _ key' => ?_, hsaved⟩
    rw [Table.lookup_erase, if_neg (key.text_ne vatID key').symm]
  | terminateVat vatID =>
    cases hstep
    exact ⟨h.other (fun _ hin => List.mem_cons_of_mem _ hin) fun _ _ _ => rfl, hsaved⟩
  | cleanup vatID budget =>
    obtain ⟨hvat, heq⟩ := Option.ite_none_right_eq_some.mp hstep
    cases heq
    refine ⟨h.other (fun _ hin => hin) fun vatID' hvat' key => ?_, hsaved⟩
    apply cleanup_lookup
    rintro rfl
    exact hvat' hvat
  | establishCrankSavepoint =>
    cases hstep
    exact ⟨h, h⟩
  | rollbackCrank =>
    cases hstep
    exact ⟨hsaved, hsaved⟩

/-- In every run in which no empty string is written, the vatstores are private ordered maps. -/
theorem vatstores_private {k : Kernel} (h : kernel.Reachable writesNonempty k) :
    PrivateMaps k.database := by
  have hinv : DatabaseInv k.database ∧ DatabaseInv k.savepoint := by
    apply h.invariant (I := fun k => DatabaseInv k.database ∧ DatabaseInv k.savepoint)
    · rintro k rfl
      have hempty : DatabaseInv {} := ⟨fun _ => rfl, fun _ _ => nofun, fun _ _ _ => rfl⟩
      exact ⟨hempty, hempty⟩
    · exact fun k a t hk hok hstep => hk.1.step hk.2 hok hstep
  exact hinv.1.privateMaps

/-- Two vats whose ids are prefixes of each other, and one that is terminated and deleted. -/
def twoVats : List Activity :=
  [.syscall 1 (.vatstoreSet ['a'] ['1']), .syscall 10 (.vatstoreSet ['a'] ['2']),
    .establishCrankSavepoint, .syscall 1 (.vatstoreDelete ['a']), .rollbackCrank,
    .terminateVat 1, .cleanup 1 none, .syscall 10 (.vatstoreGetNextKey []),
    .syscall 10 (.vatstoreGet ['a'])]

theorem vatstores_private_twoVats : ∃ k : Kernel,
    ((k.database.transcript 10).map (·.r) = [none, some ['a'], some ['2']] ∧
      k.database.kvStore.size = 1) ∧ PrivateMaps k.database := by
  have hrun : (kernel.runWhile writesNonempty {} twoVats).map (fun k =>
      ((k.database.transcript 10).map (·.r), k.database.kvStore.size)) =
      some ([none, some ['a'], some ['2']], 1) := by
    decide +kernel
  obtain ⟨k, hk, heq⟩ := Option.map_eq_some_iff.mp hrun
  exact ⟨k, Prod.mk.inj heq, vatstores_private (.of_runWhile (.init rfl) hk)⟩

/-- A key with an empty value is there for an iteration and not for a read. -/
theorem vatstores_emptyValue :
    ¬ ∀ k : Kernel, kernel.Reachable anyStep k → PrivateMaps k.database := by
  intro hall
  have hrun : (kernel.runWhile anyStep {} [.syscall 1 (.vatstoreSet ['a'] [])]).map (fun k =>
      ((vatSyscallHandler k.database.kvStore 1 (.vatstoreGet ['a'])).1,
        iterate k.database.kvStore 1 2 [], k.database.terminated)) =
      some (none, some [['a']], []) := by
    decide +kernel
  obtain ⟨k, hk, heq⟩ := Option.map_eq_some_iff.mp hrun
  simp only [Prod.mk.injEq] at heq
  obtain ⟨hget, hiterate, hterminated⟩ := heq
  have hvat : 1 ∉ k.database.terminated := by
    rw [hterminated]
    exact List.not_mem_nil
  have hagrees := (hall k (.of_runWhile (.init rfl) hk)).agrees 1 hvat [] ['a'] (by decide)
  rw [hget] at hagrees
  cases hagrees.mpr ⟨2, [['a']], hiterate, List.mem_singleton_self _⟩

end Steps

end AgoricSdk.Vatstore
