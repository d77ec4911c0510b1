import AgoricSdk.Lib.Table

/-!
Records: values under distinct keys, in order. They model objects whose keys
are data, with spreading (`{ ...base, ...update }`), mapping over the entries by a
function that may throw, and building a record from computed entries. The total
weight of the values follows what is done key by key.
-/

/-- Values under distinct keys, in the order in which they were added. -/
structure Record (κ α : Type) where
  entries : List (κ × α)
  nodup : (entries.map (·.1)).Nodup

namespace Record

variable {κ α β : Type}

instance [DecidableEq κ] [DecidableEq α] : DecidableEq (Record κ α) := fun r s =>
  decidable_of_iff (r.entries = s.entries) <| by
    cases r
    cases s
    simp

instance : EmptyCollection (Record κ α) := ⟨⟨[], List.nodup_nil⟩⟩

instance : Inhabited (Record κ α) := ⟨∅⟩

def singleton (k : κ) (a : α) : Record κ α := ⟨[(k, a)], List.nodup_singleton k⟩

def keys (r : Record κ α) : List κ := r.entries.map (·.1)

def values (r : Record κ α) : List α := r.entries.map (·.2)

/-- The weight of all the values. -/
def total (w : α → Nat) (r : Record κ α) : Nat := (r.values.map w).sum

@[simp] theorem total_empty (w : α → Nat) : total w (∅ : Record κ α) = 0 := rfl

theorem mem_values_iff {r : Record κ α} {a : α} : a ∈ r.values ↔ ∃ k, (k, a) ∈ r.entries := by
  simp [values]

variable [DecidableEq κ]

/-- The value under a key. -/
def get (r : Record κ α) (k : κ) : Option α := (r.entries.find? fun e => e.1 = k).map (·.2)

def has (r : Record κ α) (k : κ) : Bool := (r.get k).isSome

@[simp] theorem get_empty (k : κ) : (∅ : Record κ α).get k = none := rfl

theorem get_eq_some_iff {r : Record κ α} {k : κ} {a : α} :
    r.get k = some a ↔ (k, a) ∈ r.entries := by
  unfold get
  constructor
  · intro h
    obtain ⟨e, he, rfl⟩ := Option.map_eq_some_iff.mp h
    have hk : e.1 = k := by simpa using List.find?_some he
    exact hk ▸ List.mem_of_find?_eq_some he
  · intro h
    obtain ⟨e, he⟩ : ∃ e, (r.entries.find? fun e => e.1 = k) = some e := by
      rw [← Option.isSome_iff_exists, List.find?_isSome]
      exact ⟨(k, a), h, by simp⟩
    have hk : e.1 = k := by simpa using List.find?_some he
    have hsame := List.inj_on_of_nodup_map r.nodup (List.mem_of_find?_eq_some he) h hk
    rw [he, hsame]
    rfl

theorem mem_keys_iff {r : Record κ α} {k : κ} : k ∈ r.keys ↔ ∃ a, r.get k = some a := by
  simp [keys, get_eq_some_iff]

theorem get_eq_none_iff {r : Record κ α} {k : κ} : r.get k = none ↔ k ∉ r.keys := by
  rw [mem_keys_iff, ← Option.ne_none_iff_exists', not_not]

theorem mem_values_of_get {r : Record κ α} {k : κ} {a : α} (h : r.get k = some a) :
    a ∈ r.values := mem_values_iff.mpr ⟨k, get_eq_some_iff.mp h⟩

theorem exists_get_of_mem_values {r : Record κ α} {a : α} (h : a ∈ r.values) :
    ∃ k, r.get k = some a := by
  obtain ⟨k, hk⟩ := mem_values_iff.mp h
  exact ⟨k, get_eq_some_iff.mpr hk⟩

section Spread

/-- `{ ...base, ...update }` -/
def spread (base update : Record κ α) : Record κ α where
  entries := base.entries.map (fun e => (e.1, (update.get e.1).getD e.2)) ++
    update.entries.filter fun e => ¬ base.has e.1
  nodup := by
    have hbase : (base.entries.map (fun e => (e.1, (update.get e.1).getD e.2))).map (·.1) =
        base.keys := by
      simp [keys, Function.comp_def]
    have hover : ((update.entries.filter fun e => ¬ base.has e.1).map (·.1)).Nodup :=
      update.nodup.sublist (List.filter_sublist.map _)
    rw [List.map_append, hbase]
    refine List.nodup_append.mpr ⟨base.nodup, hover, ?_⟩
    rintro k hk _ hk' rfl
    obtain ⟨e, he, rfl⟩ := List.mem_map.mp hk'
    obtain ⟨a, ha⟩ := mem_keys_iff.mp hk
    have hnot := (List.mem_filter.mp he).2
    simp [has, ha] at hnot

theorem get_spread (base update : Record κ α) (k : κ) :
    (spread base update).get k = (update.get k).or (base.get k) := by
  apply Option.ext
  intro a
  rw [get_eq_some_iff]
  simp only [spread, List.mem_append, List.mem_map, List.mem_filter, Prod.mk.injEq]
  cases ho : update.get k with
  | some b =>
    rw [Option.some_or]
    constructor
    · rintro (⟨e, _, rfl, he⟩ | ⟨he, _⟩)
      · simpa [ho] using he
      · rw [← get_eq_some_iff, ho] at he
        exact he
    · rintro ⟨⟩
      cases hb : base.get k with
      | some c => exact .inl ⟨(k, c), get_eq_some_iff.mp hb, rfl, by simp [ho]⟩
      | none => exact .inr ⟨get_eq_some_iff.mp ho, by simp [has, hb]⟩
  | none =>
    rw [Option.none_or, get_eq_some_iff]
    constructor
    · rintro (⟨e, hmem, rfl, he⟩ | ⟨he, _⟩)
      · rw [ho] at he
        exact he ▸ hmem
      · rw [← get_eq_some_iff, ho] at he
        cases he
    · exact fun h => .inl ⟨(k, a), h, rfl, by simp [ho]⟩

@[simp] theorem get_singleton (k k' : κ) (a : α) :
    (singleton k a).get k' = if k = k' then some a else none := by
  by_cases h : k = k' <;> simp [get, singleton, h]

end Spread

section Collect

/-- The entries computed for the keys; `none` when one of them throws. A key
whose value is `undefined` gets no entry. -/
def collectEntries (f : κ → Option (Option α)) : List κ → Option (List (κ × α))
  | [] => some []
  | k :: ks => do
      let a ← f k
      let es ← collectEntries f ks
      some (match a with
        | some a => (k, a) :: es
        | none => es)

omit [DecidableEq κ] in
theorem keys_collectEntries {f : κ → Option (Option α)} {ks : List κ} {es : List (κ × α)}
    (h : collectEntries f ks = some es) : (es.map (·.1)).Sublist ks := by
  induction ks generalizing es with
  | nil =>
    cases h
    exact List.Sublist.refl _
  | cons k ks ih =>
    simp only [collectEntries, Option.bind_eq_bind, Option.bind_eq_some_iff] at h
    obtain ⟨a, -, es', hes', h⟩ := h
    cases a with
    | none =>
      cases h
      exact (ih hes').cons k
    | some a =>
      cases h
      exact (ih hes').cons_cons k

omit [DecidableEq κ] in
theorem mem_collectEntries {f : κ → Option (Option α)} {ks : List κ} {es : List (κ × α)}
    (h : collectEntries f ks = some es) {k : κ} {a : α} :
    (k, a) ∈ es ↔ k ∈ ks ∧ f k = some (some a) := by
  induction ks generalizing es with
  | nil =>
    cases h
    simp
  | cons k' ks ih =>
    simp only [collectEntries, Option.bind_eq_bind, Option.bind_eq_some_iff] at h
    obtain ⟨b, hb, es', hes', h⟩ := h
    rw [List.mem_cons]
    cases b with
    | none =>
      cases h
      rw [ih hes']
      constructor
      · exact fun h => ⟨.inr h.1, h.2⟩
      · rintro ⟨rfl | hk, hf⟩
        · rw [hb] at hf
          cases hf
        · exact ⟨hk, hf⟩
    | some b =>
      cases h
      rw [List.mem_cons, ih hes', Prod.mk.injEq]
      constructor
      · rintro (⟨rfl, rfl⟩ | h)
        · exact ⟨.inl rfl, hb⟩
        · exact ⟨.inr h.1, h.2⟩
      · rintro ⟨rfl | hk, hf⟩
        · rw [hb] at hf
          cases hf
          exact .inl ⟨rfl, rfl⟩
        · exact .inr ⟨hk, hf⟩

omit [DecidableEq κ] in
theorem isSome_of_collectEntries {f : κ → Option (Option α)} {ks : List κ} {es : List (κ × α)}
    (h : collectEntries f ks = some es) {k : κ} (hk : k ∈ ks) : (f k).isSome := by
  induction ks generalizing es with
  | nil => cases hk
  | cons k' ks ih =>
    simp only [collectEntries, Option.bind_eq_bind, Option.bind_eq_some_iff] at h
    obtain ⟨b, hb, es', hes', -⟩ := h
    rcases List.mem_cons.mp hk with rfl | hk
    · simp [hb]
    · exact ih hes' hk

/-- `Object.fromEntries` of what is computed for the keys of a record. -/
def collect (keysOf : Record κ β) (f : κ → Option (Option α)) : Option (Record κ α) :=
  match h : collectEntries f keysOf.keys with
  | some es => some ⟨es, keysOf.nodup.sublist (keys_collectEntries h)⟩
  | none => none

omit [DecidableEq κ] in
theorem collect_some {keysOf : Record κ β} {f : κ → Option (Option α)} {r : Record κ α}
    (h : collect keysOf f = some r) : collectEntries f keysOf.keys = some r.entries := by
  unfold collect at h
  split at h
  case h_1 es hes =>
    cases h
    exact hes
  case h_2 => cases h

theorem get_collect {keysOf : Record κ β} {f : κ → Option (Option α)} {r : Record κ α}
    (h : collect keysOf f = some r) {k : κ} {a : α} :
    r.get k = some a ↔ k ∈ keysOf.keys ∧ f k = some (some a) := by
  rw [get_eq_some_iff, mem_collectEntries (collect_some h)]

omit [DecidableEq κ] in
theorem exists_collectEntries {f : κ → Option (Option α)} {ks : List κ}
    (h : ∀ k ∈ ks, ∃ a, f k = some a) : ∃ es, collectEntries f ks = some es := by
  induction ks with
  | nil => exact ⟨[], rfl⟩
  | cons k ks ih =>
    obtain ⟨a, ha⟩ := h k (List.mem_cons_self ..)
    obtain ⟨es, hes⟩ := ih fun k' hk' => h k' (List.mem_cons_of_mem _ hk')
    rw [collectEntries, ha, hes]
    exact ⟨_, rfl⟩

omit [DecidableEq κ] in
/-- Nothing throws where no key does. -/
theorem exists_collect {keysOf : Record κ β} {f : κ → Option (Option α)}
    (h : ∀ k ∈ keysOf.keys, ∃ a, f k = some a) : ∃ r, collect keysOf f = some r := by
  obtain ⟨es, hes⟩ := exists_collectEntries h
  unfold collect
  split
  case h_1 es' _ => exact ⟨_, rfl⟩
  case h_2 hnone =>
    rw [hes] at hnone
    cases hnone

theorem get_collect_eq {keysOf : Record κ β} {f : κ → Option (Option α)} {r : Record κ α}
    (h : collect keysOf f = some r) (k : κ) :
    k ∈ keysOf.keys ∧ f k = some (r.get k) ∨ k ∉ keysOf.keys ∧ r.get k = none := by
  have hget := fun a => get_collect h (k := k) (a := a)
  by_cases hk : k ∈ keysOf.keys
  · obtain ⟨o, ho⟩ := Option.isSome_iff_exists.mp (isSome_of_collectEntries (collect_some h) hk)
    refine .inl ⟨hk, ?_⟩
    cases o with
    | some a => rw [ho, (hget a).mpr ⟨hk, ho⟩]
    | none =>
      cases hr : r.get k with
      | none => exact ho
      | some a => exact ((hget a).mp hr).2
  · refine .inr ⟨hk, ?_⟩
    cases hr : r.get k with
    | none => rfl
    | some a => exact absurd ((hget a).mp hr).1 hk

/-- `objectMap(record, mapper)` -/
def mapM (f : κ → α → Option β) (r : Record κ α) : Option (Record κ β) :=
  collect r fun k => (r.get k).elim none fun a => (f k a).map some

theorem get_mapM {f : κ → α → Option β} {r : Record κ α} {r' : Record κ β}
    (h : r.mapM f = some r') {k : κ} {b : β} :
    r'.get k = some b ↔ ∃ a, r.get k = some a ∧ f k a = some b := by
  rw [get_collect h, mem_keys_iff]
  constructor
  · rintro ⟨⟨a, ha⟩, hf⟩
    rw [ha] at hf
    exact ⟨a, ha, by simpa using hf⟩
  · rintro ⟨a, ha, hf⟩
    exact ⟨⟨a, ha⟩, by simp [ha, hf]⟩

theorem exists_of_mapM {f : κ → α → Option β} {r : Record κ α} {r' : Record κ β}
    (h : r.mapM f = some r') {k : κ} {a : α} (ha : r.get k = some a) :
    ∃ b, f k a = some b ∧ r'.get k = some b := by
  have hsome := isSome_of_collectEntries (collect_some h) (mem_keys_iff.mpr ⟨a, ha⟩)
  simp only [ha, Option.elim_some, Option.isSome_map] at hsome
  obtain ⟨b, hb⟩ := Option.isSome_iff_exists.mp hsome
  exact ⟨b, hb, (get_mapM h).mpr ⟨a, ha, hb⟩⟩

theorem exists_mapM {f : κ → α → Option β} {r : Record κ α}
    (h : ∀ k a, r.get k = some a → ∃ b, f k a = some b) : ∃ r', r.mapM f = some r' := by
  apply exists_collect
  intro k hk
  obtain ⟨a, ha⟩ := mem_keys_iff.mp hk
  obtain ⟨b, hb⟩ := h k a ha
  exact ⟨some b, by rw [ha, Option.elim_some, hb, Option.map_some]⟩

end Collect

/-- The same keys with every value converted. -/
def map (f : α → β) (r : Record κ α) : Record κ β where
  entries := r.entries.map fun e => (e.1, f e.2)
  nodup := by
    have hkeys : (r.entries.map fun e => (e.1, f e.2)).map (·.1) = r.keys := by
      simp [keys, Function.comp_def]
    rw [hkeys]
    exact r.nodup

theorem get_map (f : α → β) (r : Record κ α) (k : κ) : (r.map f).get k = (r.get k).map f := by
  apply Option.ext
  intro b
  rw [get_eq_some_iff, Option.map_eq_some_iff]
  simp only [map, List.mem_map, Prod.mk.injEq]
  constructor
  · rintro ⟨e, he, rfl, rfl⟩
    exact ⟨e.2, get_eq_some_iff.mpr he, rfl⟩
  · rintro ⟨a, ha, rfl⟩
    exact ⟨(k, a), get_eq_some_iff.mp ha, rfl, rfl⟩

omit [DecidableEq κ] in
theorem values_map (f : α → β) (r : Record κ α) : (r.map f).values = r.values.map f := by
  unfold values map
  rw [List.map_map, List.map_map]
  rfl

/-- Write one key. A key that is there keeps its place. -/
def set (r : Record κ α) (k : κ) (a : α) : Record κ α := spread r (singleton k a)

theorem get_set (r : Record κ α) (k k' : κ) (a : α) :
    (r.set k a).get k' = if k' = k then some a else r.get k' := by
  rw [set, get_spread, get_singleton]
  by_cases h : k' = k
  · rw [if_pos h, if_pos h.symm, Option.some_or]
  · rw [if_neg h, if_neg (Ne.symm h), Option.none_or]

/-- Convert every value, and drop the keys of those without a result. -/
def filterMap (f : α → Option β) (r : Record κ α) : Record κ β where
  entries := r.entries.filterMap fun e => (f e.2).map fun b => (e.1, b)
  nodup := by
    refine List.Nodup.sublist ?_ r.nodup
    induction r.entries with
    | nil => exact List.Sublist.refl _
    | cons e es ih =>
      rw [List.filterMap_cons]
      cases f e.2 with
      | none => exact ih.cons e.1
      | some b => exact ih.cons_cons e.1

theorem get_filterMap (f : α → Option β) (r : Record κ α) (k : κ) :
    (r.filterMap f).get k = (r.get k).bind f := by
  apply Option.ext
  intro b
  rw [get_eq_some_iff, Option.bind_eq_some_iff]
  simp only [filterMap, List.mem_filterMap, Option.map_eq_some_iff, Prod.mk.injEq]
  constructor
  · rintro ⟨e, he, _, hb, rfl, rfl⟩
    exact ⟨e.2, get_eq_some_iff.mpr he, hb⟩
  · rintro ⟨a, ha, hb⟩
    exact ⟨(k, a), get_eq_some_iff.mp ha, b, hb, rfl, rfl⟩

section Totals

end Totals

section Sums

theorem sum_entries {M : Type} [AddCommMonoid M] (r : Record κ α) (f : κ → α → M) {S : Finset κ}
    (hS : ∀ k ∈ r.keys, k ∈ S) :
    (r.entries.map fun e => f e.1 e.2).sum = ∑ k ∈ S, (r.get k).elim 0 (f k) := by
  have hkeys : (r.entries.map fun e => f e.1 e.2) =
      r.keys.map fun k => (r.get k).elim 0 (f k) := by
    unfold keys
    rw [List.map_map]
    apply List.map_congr_left
    intro e he
    dsimp only [Function.comp]
    rw [get_eq_some_iff.mpr he]
    rfl
  have hnodup : r.keys.Nodup := r.nodup
  rw [hkeys, ← List.sum_toFinset _ hnodup]
  apply Finset.sum_subset
  · exact fun k hk => hS k (List.mem_toFinset.mp hk)
  · intro k _ hk
    rw [List.mem_toFinset] at hk
    rw [get_eq_none_iff.mpr hk]
    rfl

theorem sum_values (r : Record κ Int) {S : Finset κ} (hS : ∀ k ∈ r.keys, k ∈ S) :
    r.values.sum = ∑ k ∈ S, (r.get k).getD 0 := by
  have hsum := r.sum_entries (fun _ a => a) hS
  have hvalue : ∀ k, (r.get k).elim 0 (fun a => a) = (r.get k).getD 0 := by
    intro k
    cases r.get k <;> rfl
  simp only [hvalue] at hsum
  exact hsum

theorem sum_values_set (r : Record κ Int) (k : κ) (a : Int) :
    (r.set k a).values.sum = r.values.sum + (a - (r.get k).getD 0) := by
  let S := insert k r.keys.toFinset
  have hr : ∀ k' ∈ r.keys, k' ∈ S := fun k' hk' =>
    Finset.mem_insert_of_mem (List.mem_toFinset.mpr hk')
  have hset : ∀ k' ∈ (r.set k a).keys, k' ∈ S := by
    intro k' hk'
    obtain ⟨b, hb⟩ := mem_keys_iff.mp hk'
    rw [get_set] at hb
    split at hb
    case isTrue heq => exact heq ▸ Finset.mem_insert_self k _
    case isFalse => exact hr k' (mem_keys_iff.mpr ⟨b, hb⟩)
  have hk : k ∈ S := Finset.mem_insert_self k _
  have hrest : ∑ k' ∈ S.erase k, ((r.set k a).get k').getD 0 =
      ∑ k' ∈ S.erase k, (r.get k').getD 0 := by
    apply Finset.sum_congr rfl
    intro k' hk'
    rw [get_set, if_neg (Finset.ne_of_mem_erase hk')]
  rw [sum_values _ hset, sum_values _ hr, ← Finset.add_sum_erase S _ hk,
    ← Finset.add_sum_erase S (fun k => (r.get k).getD 0) hk, hrest, get_set, if_pos rfl]
  simp only [Option.getD_some]
  omega

end Sums

end Record
