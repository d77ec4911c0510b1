import Mathlib.Data.Finmap
import Mathlib.Data.Finset.Max
import Mathlib.Data.Finset.Sort
import Mathlib.Tactic

/-!
Finite maps with ordered keys, and the walk over their keys from one to the next.
-/

namespace OrderedMap

variable {κ : Type} [LinearOrder κ] {keys keys' : Finset κ} {k : κ}

/-- The first of the keys after `k`. -/
def next (keys : Finset κ) (k : κ) : Option κ := (keys.filter (k < ·)).min

/-- What the first key after `k` is, and that there is none. -/
def IsNext (keys : Finset κ) (k : κ) : Option κ → Prop
  | none => ∀ k' ∈ keys, k' ≤ k
  | some n => n ∈ keys ∧ k < n ∧ ∀ k' ∈ keys, k < k' → n ≤ k'

theorem IsNext.unique {r r' : Option κ} (h : IsNext keys k r) (h' : IsNext keys k r') : r = r' := by
  cases r with
  | none =>
    cases r' with
    | none => rfl
    | some n' => exact absurd (h n' h'.1) (not_le_of_gt h'.2.1)
  | some n =>
    cases r' with
    | none => exact absurd (h' n h.1) (not_le_of_gt h.2.1)
    | some n' =>
      have hle := h.2.2 n' h'.1 h'.2.1
      have hge := h'.2.2 n h.1 h.2.1
      rw [le_antisymm hle hge]

theorem isNext_next (keys : Finset κ) (k : κ) : IsNext keys k (next keys k) := by
  have hmem : ∀ k', k' ∈ keys.filter (k < ·) ↔ k' ∈ keys ∧ k < k' := fun k' => Finset.mem_filter
  cases h : next keys k with
  | none =>
    have hempty : keys.filter (k < ·) = ∅ := Finset.min_eq_top.mp h
    intro k' hk'
    apply le_of_not_gt
    intro hlt
    have hin := (hmem k').mpr ⟨hk', hlt⟩
    rw [hempty] at hin
    exact Finset.notMem_empty k' hin
  | some n =>
    obtain ⟨hn, hlt⟩ := (hmem n).mp (Finset.mem_of_min h)
    exact ⟨hn, hlt, fun k' hk' hlt' => Finset.min_le_of_eq ((hmem k').mpr ⟨hk', hlt'⟩) h⟩

example : next ({1, 3} : Finset ℕ) 1 = some 3 := by decide +kernel

theorem IsNext.next_eq {r : Option κ} (h : IsNext keys k r) : next keys k = r :=
  (isNext_next keys k).unique h

theorem next_eq_min (h : ∀ k' ∈ keys, k < k') : next keys k = keys.min :=
  congrArg Finset.min (Finset.filter_true_of_mem h)

section Merge

variable {added ahead : Finset κ} {k₀ : κ}

/-- Of keys that were added and keys ahead in another walk, which is at `k₀`, the first added one
comes next unless one ahead does. -/
theorem IsNext.of_added (hkeys : ∀ k' ∈ keys, k < k' → k' ∈ added ∨ (k' ∈ ahead ∧ k₀ < k'))
    (hadded : ∀ k' ∈ added, k' ∈ keys) {r : Option κ} (h : IsNext added k r)
    (hfirst : ∀ k' ∈ ahead, k₀ < k' → ∃ n, r = some n ∧ n ≤ k') : IsNext keys k r := by
  cases r with
  | none =>
    intro k' hk'
    apply le_of_not_gt
    intro hlt
    rcases hkeys k' hk' hlt with hin | ⟨hin, hahead⟩
    · exact absurd hlt (not_lt_of_ge (h k' hin))
    · obtain ⟨n, hn, -⟩ := hfirst k' hin hahead
      cases hn
  | some n =>
    obtain ⟨hn, hlt, hmin⟩ := h
    refine ⟨hadded n hn, hlt, ?_⟩
    intro k' hk' hlt'
    rcases hkeys k' hk' hlt' with hin | ⟨hin, hahead⟩
    · exact hmin k' hin hlt'
    · obtain ⟨_, heq, hle⟩ := hfirst k' hin hahead
      cases heq
      exact hle

theorem IsNext.of_ahead (hkeys : ∀ k' ∈ keys, k < k' → k' ∈ added ∨ (k' ∈ ahead ∧ k₀ < k'))
    {n : κ} (hn : n ∈ keys) (hlt : k < n) (h : IsNext ahead k₀ (some n))
    (hfirst : ∀ k' ∈ added, k < k' → n ≤ k') : IsNext keys k (some n) := by
  refine ⟨hn, hlt, ?_⟩
  intro k' hk' hlt'
  rcases hkeys k' hk' hlt' with hin | ⟨hin, hahead⟩
  · exact hfirst k' hin hlt'
  · exact h.2.2 k' hin hahead

end Merge

/-- The keys after `k`, in order. -/
def after (keys : Finset κ) (k : κ) : List κ := (keys.filter (k < ·)).sort (· ≤ ·)

theorem mem_after {k' : κ} : k' ∈ after keys k ↔ k' ∈ keys ∧ k < k' := by
  rw [after, Finset.mem_sort, Finset.mem_filter]

theorem length_after_le (keys : Finset κ) (k : κ) : (after keys k).length ≤ keys.card := by
  rw [after, Finset.length_sort]
  exact Finset.card_filter_le _ _

theorem next_of_after_nil (h : after keys k = []) : next keys k = none := by
  apply IsNext.next_eq
  intro k' hk'
  apply le_of_not_gt
  intro hlt
  have hmem := mem_after.mpr ⟨hk', hlt⟩
  rw [h] at hmem
  exact List.not_mem_nil hmem

theorem after_congr (h : ∀ k', k < k' → (k' ∈ keys ↔ k' ∈ keys')) : after keys k = after keys' k := by
  unfold after
  congr 1
  ext k'
  rw [Finset.mem_filter, Finset.mem_filter]
  constructor
  · exact fun hk' => ⟨(h k' hk'.2).mp hk'.1, hk'.2⟩
  · exact fun hk' => ⟨(h k' hk'.2).mpr hk'.1, hk'.2⟩

theorem next_of_after_cons {n : κ} {ks : List κ} (h : after keys k = n :: ks) :
    next keys k = some n ∧ after keys n = ks := by
  have hsorted : (n :: ks).Pairwise (· < ·) := by
    rw [← h]
    exact (keys.filter (k < ·)).sortedLT_sort.pairwise
  obtain ⟨hfirst, hrest⟩ := List.pairwise_cons.mp hsorted
  have hmem : ∀ k', k' ∈ n :: ks ↔ k' ∈ keys ∧ k < k' := by
    intro k'
    rw [← h]
    exact mem_after
  obtain ⟨hn, hlt⟩ := (hmem n).mp List.mem_cons_self
  constructor
  · apply IsNext.next_eq
    refine ⟨hn, hlt, ?_⟩
    intro k' hk' hlt'
    rcases List.mem_cons.mp ((hmem k').mpr ⟨hk', hlt'⟩) with rfl | hin
    · exact le_refl k'
    · exact (hfirst k' hin).le
  · have hset : keys.filter (n < ·) = ks.toFinset := by
      ext k'
      rw [Finset.mem_filter, List.mem_toFinset]
      constructor
      · intro hk'
        have hin := (hmem k').mpr ⟨hk'.1, hlt.trans hk'.2⟩
        exact (List.mem_cons.mp hin).resolve_left hk'.2.ne'
      · exact fun hin => ⟨((hmem k').mp (List.mem_cons_of_mem n hin)).1, hfirst k' hin⟩
    unfold after
    rw [hset]
    exact (List.toFinset_sort (· ≤ ·) hrest.nodup).mpr (hrest.imp le_of_lt)

section Lookup

variable {α : Type} {m : Finmap fun _ : κ => α}

theorem lookup_insert (k k' : κ) (a : α) :
    (m.insert k a).lookup k' = if k' = k then some a else m.lookup k' := by
  split
  case isTrue heq =>
    subst heq
    exact Finmap.lookup_insert m
  case isFalse hne => exact Finmap.lookup_insert_of_ne m hne

theorem lookup_erase (k k' : κ) :
    (m.erase k).lookup k' = if k' = k then none else m.lookup k' := by
  split
  case isTrue heq =>
    subst heq
    exact Finmap.lookup_erase k' m
  case isFalse hne => exact Finmap.lookup_erase_ne hne

theorem lookup_foldl_erase (ks : List κ) (k : κ) :
    (ks.foldl (fun m k => m.erase k) m).lookup k = if k ∈ ks then none else m.lookup k := by
  induction ks generalizing m with
  | nil => rfl
  | cons k' ks ih =>
    rw [List.foldl_cons, ih, lookup_erase]
    by_cases hmem : k ∈ ks
    · rw [if_pos hmem, if_pos (List.mem_cons_of_mem _ hmem)]
    · by_cases heq : k = k'
      · rw [if_neg hmem, if_pos heq, if_pos (List.mem_cons.mpr (.inl heq))]
      · rw [if_neg hmem, if_neg heq, if_neg fun h => (List.mem_cons.mp h).elim heq hmem]

theorem mem_keys_iff {k : κ} : k ∈ m.keys ↔ (m.lookup k).isSome = true := by
  rw [Finmap.mem_keys, Finmap.lookup_isSome]

end Lookup

end OrderedMap
