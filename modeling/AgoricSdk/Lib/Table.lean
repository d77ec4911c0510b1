import Mathlib.Data.List.AList
import Mathlib.Tactic

/-!
Finite tables and sums over their entries. A table is an association list
whose keys are distinct by construction. A sum of a weight over the entries
changes by exactly one entry when the table is written at one key, which is
how counts of references follow the writes of a store.
-/

/-- A finite map from `κ` to `α` with distinct keys. -/
def Table (κ α : Type) := AList (fun _ : κ => α)

namespace Table

variable {κ α : Type}

instance : EmptyCollection (Table κ α) := ⟨(∅ : AList fun _ : κ => α)⟩

instance : Inhabited (Table κ α) := ⟨∅⟩

/-- The pairs of the table, the most recently written key first. -/
def pairs (t : Table κ α) : List (κ × α) := t.entries.map fun e => (e.1, e.2)

/-- The keys of the table. -/
def keys (t : Table κ α) : List κ := AList.keys t

/-- The total weight of the entries. -/
def sumOver (f : κ → α → Nat) (t : Table κ α) : Nat :=
  (t.entries.map fun e => f e.1 e.2).sum

/-- The number of keys. -/
def size (t : Table κ α) : Nat := t.entries.length

@[simp] theorem sumOver_empty (f : κ → α → Nat) : sumOver f (∅ : Table κ α) = 0 := rfl

@[simp] theorem size_empty : size (∅ : Table κ α) = 0 := rfl

theorem nodup_pairs (t : Table κ α) : t.pairs.Nodup := by
  apply List.Nodup.of_map Prod.fst
  have hkeys : t.pairs.map Prod.fst = t.keys := by
    rw [pairs, List.map_map]
    rfl
  rw [hkeys]
  exact AList.keys_nodup t

variable [DecidableEq κ]

def lookup (t : Table κ α) (k : κ) : Option α := AList.lookup k t

def insert (t : Table κ α) (k : κ) (v : α) : Table κ α := AList.insert k v t

def erase (t : Table κ α) (k : κ) : Table κ α := AList.erase k t

/-- Whether the key is present. -/
def has (t : Table κ α) (k : κ) : Bool := (t.lookup k).isSome

@[simp] theorem lookup_empty (k : κ) : (∅ : Table κ α).lookup k = none := rfl

@[simp] theorem lookup_insert (t : Table κ α) (k a : κ) (v : α) :
    (t.insert k v).lookup a = if a = k then some v else t.lookup a := by
  by_cases h : a = k
  · subst h
    rw [if_pos rfl]
    exact AList.lookup_insert (β := fun _ : κ => α) t
  · rw [if_neg h]
    exact AList.lookup_insert_ne h

@[simp] theorem lookup_erase (t : Table κ α) (k a : κ) :
    (t.erase k).lookup a = if a = k then none else t.lookup a := by
  by_cases h : a = k
  · subst h
    rw [if_pos rfl]
    exact AList.lookup_erase (β := fun _ : κ => α) a t
  · rw [if_neg h]
    exact AList.lookup_erase_ne h

theorem has_insert_iff {t : Table κ α} {k a : κ} {v : α} :
    (t.insert k v).has a = true ↔ a = k ∨ t.has a = true := by
  by_cases h : a = k <;> simp [has, h]

theorem has_erase_iff {t : Table κ α} {k a : κ} :
    (t.erase k).has a = true ↔ a ≠ k ∧ t.has a = true := by
  by_cases h : a = k <;> simp [has, h]

theorem has_of_lookup {t : Table κ α} {k : κ} {v : α} (h : t.lookup k = some v) :
    t.has k = true := by simp [has, h]

theorem lookup_eq_none {t : Table κ α} {k : κ} (h : t.has k = false) : t.lookup k = none := by
  simpa [has] using h

theorem has_insert_of_lookup {t : Table κ α} {k : κ} {w : α} (h : t.lookup k = some w) (v : α)
    (a : κ) : (t.insert k v).has a = t.has a := by
  simp only [has, lookup_insert]
  split
  case isTrue heq => rw [heq, h]; rfl
  case isFalse => rfl

theorem erase_insert_self (t : Table κ α) (k : κ) (v : α) : (t.insert k v).erase k = t.erase k := by
  apply AList.ext
  exact List.kerase_cons_eq (s := ⟨k, v⟩) (l := AList.entries (AList.erase k t)) rfl

theorem insert_insert_self (t : Table κ α) (k : κ) (v w : α) :
    (t.insert k v).insert k w = t.insert k w := by
  apply AList.ext
  exact congrArg (List.cons _) (congrArg AList.entries (erase_insert_self t k v))

theorem mem_entries_iff {k : κ} {v : α} {t : Table κ α} :
    ⟨k, v⟩ ∈ t.entries ↔ t.lookup k = some v :=
  AList.mem_lookup_iff.symm

theorem mem_pairs_iff {k : κ} {v : α} {t : Table κ α} :
    (k, v) ∈ t.pairs ↔ t.lookup k = some v := by
  rw [← mem_entries_iff]
  constructor
  · intro h
    obtain ⟨e, he, heq⟩ := List.mem_map.mp h
    cases heq
    exact he
  · intro h
    exact List.mem_map.mpr ⟨_, h, rfl⟩

theorem mem_keys_iff {k : κ} {t : Table κ α} : k ∈ t.keys ↔ t.has k = true := by
  exact (AList.mem_keys.symm.trans AList.lookup_isSome.symm)

theorem sumOver_congr {f g : κ → α → Nat} {t : Table κ α}
    (h : ∀ k a, t.lookup k = some a → f k a = g k a) : t.sumOver f = t.sumOver g := by
  unfold sumOver
  exact congrArg List.sum (List.map_congr_left fun e he => h e.1 e.2 (mem_entries_iff.mp he))

theorem sumOver_erase (f : κ → α → Nat) (k : κ) (t : Table κ α) :
    (t.erase k).sumOver f + ((t.lookup k).elim 0 (f k)) = t.sumOver f := by
  cases hv : t.lookup k with
  | none =>
    have hk : k ∉ t.entries.keys := AList.lookup_eq_none.mp hv
    have he : (t.erase k).entries = t.entries := List.kerase_of_notMem_keys hk
    simp [sumOver, he]
  | some v =>
    have hk : k ∈ t.entries.keys := AList.lookup_isSome.mp (Option.isSome_of_mem hv)
    obtain ⟨w, l₁, l₂, -, hsplit, herase⟩ := List.exists_of_kerase hk
    have hw : w = v := by
      have hmem : (⟨k, w⟩ : Sigma fun _ : κ => α) ∈ t.entries := by rw [hsplit]; simp
      have := mem_entries_iff.mp hmem
      rw [hv] at this
      exact (Option.some.inj this).symm
    subst hw
    have he : (t.erase k).entries = l₁ ++ l₂ := herase
    simp only [sumOver, he, hsplit, Option.elim_some, List.map_append, List.map_cons,
      List.sum_append, List.sum_cons]
    omega

theorem sumOver_insert (f : κ → α → Nat) (k : κ) (v : α) (t : Table κ α) :
    (t.insert k v).sumOver f + ((t.lookup k).elim 0 (f k)) = t.sumOver f + f k v := by
  have h := sumOver_erase f k t
  have hi : (t.insert k v).sumOver f = f k v + (t.erase k).sumOver f := rfl
  omega

theorem sumOver_insert_none {f : κ → α → Nat} {k : κ} {v : α} {t : Table κ α}
    (h : t.lookup k = none) : (t.insert k v).sumOver f = t.sumOver f + f k v := by
  have := sumOver_insert f k v t
  rwa [h] at this

theorem sumOver_insert_some {f : κ → α → Nat} {k : κ} {v w : α} {t : Table κ α}
    (h : t.lookup k = some w) : (t.insert k v).sumOver f + f k w = t.sumOver f + f k v := by
  have := sumOver_insert f k v t
  rwa [h] at this

theorem sumOver_erase_some {f : κ → α → Nat} {k : κ} {w : α} {t : Table κ α}
    (h : t.lookup k = some w) : (t.erase k).sumOver f + f k w = t.sumOver f := by
  have := sumOver_erase f k t
  rwa [h] at this

theorem le_sumOver {f : κ → α → Nat} {k : κ} {v : α} {t : Table κ α}
    (h : t.lookup k = some v) : f k v ≤ t.sumOver f := by
  have := sumOver_erase_some (f := f) h
  omega

theorem sumOver_eq_zero {f : κ → α → Nat} {t : Table κ α}
    (h : ∀ k v, t.lookup k = some v → f k v = 0) : t.sumOver f = 0 := by
  have hc : t.sumOver f = t.sumOver fun _ _ => 0 := sumOver_congr h
  simpa [sumOver] using hc

/-- The entries that meet a condition. -/
def filter (p : κ → α → Bool) (t : Table κ α) : Table κ α :=
  ⟨t.entries.filter fun e => p e.1 e.2, t.nodupKeys.sublist List.filter_sublist⟩

@[simp] theorem lookup_filter (p : κ → α → Bool) (t : Table κ α) (k : κ) :
    (t.filter p).lookup k = (t.lookup k).filter (p k) := by
  apply Option.ext
  intro a
  rw [← mem_entries_iff, Option.filter_eq_some_iff, ← mem_entries_iff]
  exact List.mem_filter

end Table
