import AgoricSdk.ERTP.StoreLib

/-!
The imported functions at numbers as keys: elements in descending order without
duplicates, bags by their counts. It shows that what the arithmetic relies on
can be had, and serves to run the models.
-/

namespace AgoricSdk.ERTP

namespace NumberStore

def coerceToElements (l : List Nat) : Option (List Nat) :=
  if l.Nodup then some (l.insertionSort (· ≥ ·)) else none

def isSuperset (a b : List Nat) : Bool := b.all (· ∈ a)

def disjointUnion (a b : List Nat) : Option (List Nat) := coerceToElements (a ++ b)

def disjointSubtract (a b : List Nat) : Option (List Nat) :=
  if isSuperset a b then coerceToElements (a.filter (· ∉ b)) else none

/-- The bag with these keys that counts them by `f`. -/
def makeBag (keys : List Nat) (f : Nat → Nat) : List (Nat × Nat) :=
  ((keys.dedup.insertionSort (· ≥ ·)).filter (0 < f ·)).map fun k => (k, f k)

def isBag (es : List (Nat × Nat)) : Bool :=
  coerceToElements (es.map (·.1)) = some (es.map (·.1)) && es.all (0 < ·.2)

def isSuperbag (a b : List (Nat × Nat)) : Bool := b.all fun e => bagCount b e.1 ≤ bagCount a e.1

def bagUnion (a b : List (Nat × Nat)) : List (Nat × Nat) :=
  makeBag (a.map (·.1) ++ b.map (·.1)) fun k => bagCount a k + bagCount b k

def bagSubtract (a b : List (Nat × Nat)) : Option (List (Nat × Nat)) :=
  if isSuperbag a b then some (makeBag (a.map (·.1)) fun k => bagCount a k - bagCount b k) else none

end NumberStore

open NumberStore in
def numberStore : StoreLib Nat where
  isKey _ := true
  coerceToElements := coerceToElements
  elementsIsSuperset := isSuperset
  elementsEqual a b := isSuperset a b && isSuperset b a
  elementsDisjointUnion := disjointUnion
  elementsDisjointSubtract := disjointSubtract
  matchesNat n := 0 ≤ n
  matchesArrayOf p l := l.all p
  matchesSet l := coerceToElements l = some l
  matchesSetOf p l := coerceToElements l = some l && l.all p
  setIsSuperset := isSuperset
  setDisjointUnion := disjointUnion
  setDisjointSubtract := disjointSubtract
  matchesBag := isBag
  matchesBagOf p es := isBag es && es.all (p ·.1)
  bagIsSuperbag := isSuperbag
  bagUnion a b := some (bagUnion a b)
  bagDisjointSubtract := bagSubtract
  keyEQ
    | .copySet a, .copySet b => isSuperset a b && isSuperset b a
    | .copyBag a, .copyBag b => isSuperbag a b && isSuperbag b a
    | a, b => a = b

namespace NumberStore

variable {l l' a b : List Nat}

theorem coerceToElements_some (h : coerceToElements l = some l') :
    coerceToElements l' = some l' ∧ l'.Perm l ∧ l'.Nodup := by
  unfold coerceToElements at h
  split at h
  case isTrue hl =>
    cases h
    have hperm := List.perm_insertionSort (· ≥ ·) l
    have hnodup := hperm.nodup_iff.mpr hl
    have hsorted := List.pairwise_insertionSort (· ≥ ·) l
    exact ⟨by rw [coerceToElements, if_pos hnodup, hsorted.insertionSort_eq], hperm, hnodup⟩
  case isFalse => cases h

theorem isSuperset_iff (hb : b.Nodup) :
    isSuperset a b = true ↔ ∀ k, b.count k ≤ a.count k := by
  simp only [isSuperset, List.all_eq_true, decide_eq_true_eq]
  constructor
  · intro h k
    by_cases hk : k ∈ b
    · have h₁ := List.nodup_iff_count_le_one.mp hb k
      have h₂ := List.count_pos_iff.mpr (h k hk)
      omega
    · simp [List.count_eq_zero.mpr hk]
  · intro h k hk
    exact List.count_pos_iff.mp ((List.count_pos_iff.mpr hk).trans_le (h k))

theorem laws {valid : List Nat → Prop} (hvalid : ∀ l, valid l ↔ coerceToElements l = some l) :
    CollectionLaws valid (fun l k => l.count k) True isSuperset disjointUnion disjointSubtract where
  superset_iff := fun _ hb => isSuperset_iff (coerceToElements_some ((hvalid _).mp hb)).2.2
  union_counts := by
    intro a b c _ _ hc
    obtain ⟨hidem, hperm, -⟩ := coerceToElements_some hc
    exact ⟨(hvalid c).mpr hidem, fun k => by rw [hperm.count_eq, List.count_append]⟩
  union_isSome := by
    intro a b _ _ hfit
    have hnodup : (a ++ b).Nodup := List.nodup_iff_count_le_one.mpr fun k => by
      rw [List.count_append]
      exact hfit trivial k
    simp [disjointUnion, coerceToElements, hnodup]
  subtract_counts := by
    intro a b c ha hb hc
    unfold disjointSubtract at hc
    split at hc
    case isTrue hsup =>
      obtain ⟨hidem, hperm, -⟩ := coerceToElements_some hc
      refine ⟨(hvalid c).mpr hidem, fun k => ?_⟩
      have hle := (isSuperset_iff (coerceToElements_some ((hvalid b).mp hb)).2.2).mp hsup k
      have ha1 := List.nodup_iff_count_le_one.mp (coerceToElements_some ((hvalid a).mp ha)).2.2 k
      rw [hperm.count_eq]
      by_cases hk : k ∈ b
      · have h₁ := List.count_pos_iff.mpr hk
        have h₂ : (a.filter (· ∉ b)).count k = 0 := by simp [List.count_eq_zero, hk]
        omega
      · have h₁ := List.count_eq_zero.mpr hk
        have h₂ : (a.filter (· ∉ b)).count k = a.count k := by simp [List.count_filter, hk]
        omega
    case isFalse => cases hc
  subtract_isSome := by
    intro a b ha hb hle
    have hsup := (isSuperset_iff (coerceToElements_some ((hvalid b).mp hb)).2.2).mpr hle
    have hnodup := (coerceToElements_some ((hvalid a).mp ha)).2.2.filter (fun k => decide (k ∉ b))
    simp only [disjointSubtract, hsup, if_true, coerceToElements, hnodup, Option.isSome_some]

theorem equal_iff (ha : coerceToElements a = some a) (hb : coerceToElements b = some b) :
    (isSuperset a b && isSuperset b a) = true ↔ ∀ k, a.count k = b.count k := by
  rw [Bool.and_eq_true, isSuperset_iff (coerceToElements_some hb).2.2,
    isSuperset_iff (coerceToElements_some ha).2.2]
  exact ⟨fun h k => le_antisymm (h.2 k) (h.1 k), fun h => ⟨fun k => (h k).ge, fun k => (h k).le⟩⟩

theorem bagCount_map (keys : List Nat) (hnodup : keys.Nodup) (f : Nat → Nat) (k : Nat) :
    bagCount (keys.map fun k => (k, f k)) k = if k ∈ keys then f k else 0 := by
  induction keys with
  | nil => rfl
  | cons x xs ih =>
    obtain ⟨hx, hxs⟩ := List.nodup_cons.mp hnodup
    rw [List.map_cons, bagCount_cons, ih hxs]
    by_cases hk : x = k
    · subst hk
      simp [hx]
    · simp [hk, Ne.symm hk]

theorem makeBag_spec (keys : List Nat) (f : Nat → Nat) (hf : ∀ k, 0 < f k → k ∈ keys) :
    isBag (makeBag keys f) = true ∧ ∀ k, bagCount (makeBag keys f) k = f k := by
  have hperm := List.perm_insertionSort (· ≥ ·) keys.dedup
  have hnodup : ((keys.dedup.insertionSort (· ≥ ·)).filter (0 < f ·)).Nodup :=
    (hperm.nodup_iff.mpr keys.nodup_dedup).filter _
  have hsorted : ((keys.dedup.insertionSort (· ≥ ·)).filter (0 < f ·)).Pairwise (· ≥ ·) :=
    (List.pairwise_insertionSort (· ≥ ·) keys.dedup).filter _
  have hkeys : (makeBag keys f).map (·.1) =
      (keys.dedup.insertionSort (· ≥ ·)).filter (0 < f ·) := by
    simp [makeBag, Function.comp_def]
  constructor
  · rw [isBag, hkeys, Bool.and_eq_true]
    refine ⟨?_, ?_⟩
    · simp [coerceToElements, hnodup, hsorted.insertionSort_eq]
    · simp [makeBag]
  · intro k
    rw [makeBag, bagCount_map _ hnodup]
    split
    case isTrue => rfl
    case isFalse h =>
      by_contra hk
      have hpos : 0 < f k := by omega
      exact h (List.mem_filter.mpr
        ⟨hperm.mem_iff.mpr (List.mem_dedup.mpr (hf k hpos)), by simpa using hpos⟩)

theorem mem_keys_of_bagCount_pos {es : List (Nat × Nat)} {k : Nat} (h : 0 < bagCount es k) :
    k ∈ es.map (·.1) := by
  obtain ⟨e, he, rfl⟩ := exists_of_bagCount_pos h
  exact List.mem_map_of_mem he

theorem isSuperbag_iff {a b : List (Nat × Nat)} :
    isSuperbag a b = true ↔ ∀ k, bagCount b k ≤ bagCount a k := by
  simp only [isSuperbag, List.all_eq_true, decide_eq_true_eq]
  constructor
  · intro h k
    by_cases hk : 0 < bagCount b k
    · obtain ⟨e, he, rfl⟩ := exists_of_bagCount_pos hk
      exact h e he
    · omega
  · exact fun h e _ => h e.1

theorem bagLaws : CollectionLaws (fun es => isBag es = true) bagCount False isSuperbag
    (fun a b => some (bagUnion a b)) bagSubtract where
  superset_iff := fun _ _ => isSuperbag_iff
  union_counts := by
    rintro a b _ _ _ ⟨⟩
    refine makeBag_spec _ _ fun k hk => ?_
    rcases Nat.eq_zero_or_pos (bagCount a k) with h | h
    · exact List.mem_append_right _ (mem_keys_of_bagCount_pos (by omega))
    · exact List.mem_append_left _ (mem_keys_of_bagCount_pos h)
  union_isSome := fun _ _ _ => rfl
  subtract_counts := by
    intro a b c _ _ hc
    unfold bagSubtract at hc
    split at hc
    case isTrue hsup =>
      cases hc
      obtain ⟨hbag, hcount⟩ := makeBag_spec (a.map (·.1)) (fun k => bagCount a k - bagCount b k)
        fun k hk => mem_keys_of_bagCount_pos (by omega)
      refine ⟨hbag, fun k => ?_⟩
      rw [hcount]
      have := isSuperbag_iff.mp hsup k
      omega
    case isFalse => cases hc
  subtract_isSome := by
    intro a b _ _ hle
    simp [bagSubtract, isSuperbag_iff.mpr hle]

end NumberStore

open NumberStore in
theorem numberStore_lawful : numberStore.Lawful where
  coerce_elements := coerceToElements_some
  coerce_nil := rfl
  elements := laws fun l => by simp [StoreLib.IsElements, numberStore]
  elements_equal_iff := fun ha hb => equal_iff ha.1 hb.1
  set_nodup := fun h => (coerceToElements_some (of_decide_eq_true h)).2.2
  set_nil := rfl
  sets := laws fun l => by simp [numberStore]
  set_keyEQ_iff := fun ha hb => equal_iff (of_decide_eq_true ha) (of_decide_eq_true hb)
  bag_pos := fun h e he => by
    have := List.all_eq_true.mp (Bool.and_eq_true_iff.mp h).2 e he
    simpa using this
  bag_nil := rfl
  bags := bagLaws
  bag_keyEQ_iff := fun _ _ => by
    simp only [numberStore, Bool.and_eq_true, isSuperbag_iff]
    exact ⟨fun h k => le_antisymm (h.2 k) (h.1 k), fun h => ⟨fun k => (h k).ge, fun k => (h k).le⟩⟩
  nat_iff := fun n => by simp [numberStore]
  arrayOf_iff := fun p l => List.all_eq_true
  setOf_iff := fun p l => by simp [numberStore]
  bagOf_iff := fun p es => by simp [numberStore]

end AgoricSdk.ERTP
