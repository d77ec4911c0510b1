import AgoricSdk.Lib.OrderedMap
import AgoricSdk.Lib.Table
import AgoricSdk.Storage.Keys

/-!
Key-value stores: what a store has to do to stand for an ordered map, the
iteration over its keys that asks for one after the other, and the store that is
made from a map, which keeps its keys sorted between changes and remembers where
its last answer was. The value of a key may be `undefined`, which is not the
same as no value.
-/

namespace AgoricSdk.Storage

open OrderedMap

/-- What a store stands for. -/
abbrev Contents (α : Type) := Finmap fun _ : Key => Option α

inductive StoreFault where
  | notImplemented
  | outOfFuel
  deriving DecidableEq

/-- The methods, which may change the state of the store even where they only read. -/
structure KVStore (α σ : Type) where
  has : Key → σ → Bool × σ
  get : Key → σ → Option α × σ
  getNextKey : Key → σ → Except StoreFault (Option Key) × σ
  set : Key → Option α → σ → σ
  delete : Key → σ → σ
  /-- More than there are keys, to bound the loops over them. -/
  fuel : σ → Nat

variable {α σ τ : Type}

/-- How a state is read as contents, and which states can be. -/
structure View (α σ : Type) where
  content : σ → Contents α
  ok : σ → Prop

/-- The state is one that can be read, with the given contents. -/
structure View.Shows (v : View α σ) (s : σ) (c : Contents α) : Prop where
  ok : v.ok s
  content : v.content s = c

/-- The methods but `getNextKey` are those of the map that the state is read as. -/
structure KVStore.Implements (store : KVStore α σ) (v : View α σ) : Prop where
  has : ∀ key s c, v.Shows s c →
    (store.has key s).1 = (c.lookup key).isSome ∧ v.Shows (store.has key s).2 c
  get : ∀ key s c, v.Shows s c →
    (store.get key s).1 = (c.lookup key).join ∧ v.Shows (store.get key s).2 c
  set : ∀ key value s c, v.Shows s c → v.Shows (store.set key value s) (c.insert key value)
  delete : ∀ key s c, v.Shows s c → v.Shows (store.delete key s) (c.erase key)

structure KVStore.Iterates (store : KVStore α σ) (v : View α σ) : Prop where
  getNextKey : ∀ key s c, v.Shows s c →
    (store.getNextKey key s).1 = .ok (next c.keys key) ∧ v.Shows (store.getNextKey key s).2 c
  fuel : ∀ s c, v.Shows s c → c.keys.card < store.fuel s

section Iteration

/-- The loop of `keys()`, with the visits of its consumer between the keys. -/
def forKeys (getNextKey : Key → τ → Except StoreFault (Option Key) × τ) (visit : Key → τ → τ) :
    Nat → Key → τ → Except StoreFault τ
  | 0, _, _ => .error .outOfFuel
  | n + 1, key, t =>
    match getNextKey key t with
    | (.error fault, _) => .error fault
    | (.ok none, t) => .ok t
    | (.ok (some key), t) =>
      if key = emptyKey then .ok t else forKeys getNextKey visit n key (visit key t)

/-- `for (const key of map.keys())` -/
def forEachKey (has : Key → τ → Bool × τ)
    (getNextKey : Key → τ → Except StoreFault (Option Key) × τ) (visit : Key → τ → τ) (fuel : Nat)
    (t : τ) : Except StoreFault τ :=
  let (present, t) := has emptyKey t
  let t := if present then visit emptyKey t else t
  forKeys getNextKey visit fuel emptyKey t

variable {has : Key → τ → Bool × τ} {getNextKey : Key → τ → Except StoreFault (Option Key) × τ}
  {visit : Key → τ → τ} {keysOf : τ → Finset Key} {I : List Key → τ → Prop}

/-- What a consumer of the keys needs: the answers are those of the keys there are, and a visit
leaves the keys to come alone. The invariant is indexed by these. -/
structure Consumes (has : Key → τ → Bool × τ)
    (getNextKey : Key → τ → Except StoreFault (Option Key) × τ) (visit : Key → τ → τ)
    (keysOf : τ → Finset Key) (I : List Key → τ → Prop) : Prop where
  hasKey : ∀ key ks t, I ks t → (has key t).1 = decide (key ∈ keysOf t) ∧
    keysOf (has key t).2 = keysOf t ∧ I ks (has key t).2
  nextKey : ∀ key ks t, I ks t → (getNextKey key t).1 = .ok (next (keysOf t) key) ∧
    keysOf (getNextKey key t).2 = keysOf t ∧ I ks (getNextKey key t).2
  visited : ∀ key ks t, I (key :: ks) t → I ks (visit key t)
  kept : ∀ key ks t, I (key :: ks) t → ∀ key', key < key' →
    (key' ∈ keysOf (visit key t) ↔ key' ∈ keysOf t)

theorem forKeys_spec (h : Consumes has getNextKey visit keysOf I) (n : Nat) (ks : List Key)
    (key : Key) (t : τ) (hn : ks.length < n) (hks : after (keysOf t) key = ks) (hI : I ks t) :
    ∃ t', forKeys getNextKey visit n key t = .ok t' ∧ I [] t' := by
  induction n generalizing ks key t with
  | zero => exact absurd hn (Nat.not_lt_zero _)
  | succ n ih =>
    obtain ⟨hanswer, hkeys, hI'⟩ := h.nextKey key ks t hI
    unfold forKeys
    generalize getNextKey key t = answer at hanswer hkeys hI' ⊢
    obtain ⟨result, t'⟩ := answer
    dsimp only at hanswer hkeys hI' ⊢
    cases ks with
    | nil =>
      rw [next_of_after_nil hks] at hanswer
      subst hanswer
      exact ⟨t', rfl, hI'⟩
    | cons key' ks =>
      obtain ⟨hnext, hrest⟩ := next_of_after_cons hks
      rw [hnext] at hanswer
      subst hanswer
      have hmem := mem_after.mp (hks.symm ▸ List.mem_cons_self : key' ∈ after (keysOf t) key)
      have hne : key' ≠ emptyKey := by
        rintro rfl
        exact absurd hmem.2 (not_lt_of_ge (emptyKey_le key))
      dsimp only
      rw [if_neg hne]
      apply ih ks key' (visit key' t') (Nat.lt_of_succ_lt_succ hn)
      · rw [after_congr (h.kept key' ks t' hI'), hkeys, hrest]
      · exact h.visited key' ks t' hI'

theorem sort_eq_after {keys : Finset Key} : keys.sort (· ≤ ·) =
    if emptyKey ∈ keys then emptyKey :: after keys emptyKey else after keys emptyKey := by
  have hlt : ∀ key, key ≠ emptyKey → emptyKey < key :=
    fun key hne => lt_of_le_of_ne (emptyKey_le key) hne.symm
  split
  case isTrue hmem =>
    have hkeys : keys = insert emptyKey (keys.filter (emptyKey < ·)) := by
      ext key
      rw [Finset.mem_insert, Finset.mem_filter]
      constructor
      · intro hkey
        by_cases hne : key = emptyKey
        · exact .inl hne
        · exact .inr ⟨hkey, hlt key hne⟩
      · rintro (rfl | ⟨hkey, -⟩)
        · exact hmem
        · exact hkey
    have hnot : emptyKey ∉ keys.filter (emptyKey < ·) :=
      fun h => lt_irrefl _ (Finset.mem_filter.mp h).2
    conv_lhs => rw [hkeys]
    exact Finset.sort_insert (· ≤ ·) (fun key _ => emptyKey_le key) hnot
  case isFalse hnot =>
    unfold after
    congr 1
    ext key
    rw [Finset.mem_filter]
    constructor
    · exact fun hkey => ⟨hkey, hlt key fun heq => hnot (heq ▸ hkey)⟩
    · exact fun hkey => hkey.1

theorem forEachKey_spec (h : Consumes has getNextKey visit keysOf I) {fuel : Nat} {t : τ}
    (hfuel : (keysOf t).card < fuel) (hI : I ((keysOf t).sort (· ≤ ·)) t) :
    ∃ t', forEachKey has getNextKey visit fuel t = .ok t' ∧ I [] t' := by
  have hlength := (length_after_le (keysOf t) emptyKey).trans_lt hfuel
  obtain ⟨hanswer, hkeys, hI'⟩ := h.hasKey emptyKey _ t hI
  unfold forEachKey
  generalize has emptyKey t = answer at hanswer hkeys hI' ⊢
  obtain ⟨present, t'⟩ := answer
  dsimp only at hanswer hkeys hI' ⊢
  subst hanswer
  rw [sort_eq_after] at hI'
  by_cases hmem : emptyKey ∈ keysOf t
  · rw [if_pos hmem] at hI'
    rw [if_pos (decide_eq_true hmem)]
    apply forKeys_spec h fuel _ emptyKey _ hlength
    · rw [after_congr (h.kept emptyKey _ t' hI'), hkeys]
    · exact h.visited emptyKey _ t' hI'
  · rw [if_neg hmem] at hI'
    rw [if_neg (by simpa using hmem)]
    exact forKeys_spec h fuel _ emptyKey t' hlength (by rw [hkeys]) hI'

end Iteration

section Keys

/-- A method of the store, beside the keys collected so far. -/
def beside {β : Type} (method : σ → β × σ) (t : List Key × σ) : β × List Key × σ :=
  let (answer, s) := method t.2
  (answer, t.1, s)

/-- `[...keys()]` -/
def KVStore.keys (store : KVStore α σ) (s : σ) : Except StoreFault (List Key × σ) :=
  forEachKey (fun key => beside (store.has key)) (fun key => beside (store.getNextKey key))
    (fun key t => (t.1 ++ [key], t.2)) (store.fuel s) ([], s)

theorem KVStore.keys_eq {store : KVStore α σ} {v : View α σ} (hstore : store.Implements v)
    (hiterates : store.Iterates v) {s : σ} {c : Contents α} (h : v.Shows s c) :
    ∃ s', store.keys s = .ok (c.keys.sort (· ≤ ·), s') ∧ v.Shows s' c := by
  let I (ks : List Key) (t : List Key × σ) : Prop :=
    v.Shows t.2 c ∧ t.1 ++ ks = c.keys.sort (· ≤ ·)
  have hconsumes : Consumes (fun key => beside (store.has key))
      (fun key => beside (store.getNextKey key)) (fun key t => (t.1 ++ [key], t.2))
      (fun t => (v.content t.2).keys) I := by
    constructor
    case hasKey =>
      intro key ks t hI
      obtain ⟨hanswer, hshows⟩ := hstore.has key t.2 c hI.1
      refine ⟨?_, ?_, hshows, hI.2⟩
      · rw [Bool.eq_iff_iff, decide_eq_true_iff, mem_keys_iff, hI.1.content]
        exact Eq.congr_left hanswer
      · exact congrArg Finmap.keys (hshows.content.trans hI.1.content.symm)
    case nextKey =>
      intro key ks t hI
      obtain ⟨hanswer, hshows⟩ := hiterates.getNextKey key t.2 c hI.1
      refine ⟨?_, ?_, hshows, hI.2⟩
      · rw [hI.1.content]
        exact hanswer
      · exact congrArg Finmap.keys (hshows.content.trans hI.1.content.symm)
    case visited =>
      intro key ks t hI
      refine ⟨hI.1, ?_⟩
      rw [List.append_assoc]
      exact hI.2
    case kept => exact fun _ _ _ _ _ _ => Iff.rfl
  have hfuel : (v.content s).keys.card < store.fuel s := by
    rw [h.content]
    exact hiterates.fuel s c h
  have hstart : I ((v.content s).keys.sort (· ≤ ·)) ([], s) := by
    refine ⟨h, ?_⟩
    rw [h.content]
    rfl
  obtain ⟨⟨keys, s'⟩, hrun, hshows, hkeys⟩ := forEachKey_spec hconsumes (t := ([], s)) hfuel hstart
  rw [List.append_nil] at hkeys
  refine ⟨s', ?_, hshows⟩
  rw [← hkeys]
  exact hrun

end Keys

end AgoricSdk.Storage
