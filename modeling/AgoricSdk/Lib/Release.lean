import Mathlib.Tactic

/-!
Things that are held by counted references, some of them references of other
things. A thing that has lost all its references is freed, and gives up those
that it holds. What can be freed is the least set closed under this. A pass that
visits a list in order, and puts in the things that lose their last reference
on the way, frees all of it just when no thing of the list comes too early.
-/

/-- A thing may be counted: `count` references to it. `refs a b` of them are held by `a`. -/
structure Holdings (κ : Type) where
  count : κ → Option Nat
  refs : κ → κ → Nat

namespace Holdings

variable {κ : Type} (H : Holdings κ)

/-- The references to a thing that a set of others holds. -/
def drops (freed : Finset κ) (k : κ) : Nat := ∑ a ∈ freed, H.refs a k

/-- All references are lost when the set is freed. -/
def Lost (freed : Finset κ) (k : κ) : Prop := ∃ n, H.count k = some n ∧ n ≤ H.drops freed k

/-- In every set that is closed under the loss of references. -/
def Free (domain : Finset κ) (k : κ) : Prop :=
  ∀ freed : Finset κ, (∀ a ∈ domain, H.Lost freed a → a ∈ freed) → k ∈ freed

variable {H}

section Monotone

variable {domain freed freed' : Finset κ} {k : κ}

theorem drops_mono (h : freed ⊆ freed') (k : κ) : H.drops freed k ≤ H.drops freed' k :=
  Finset.sum_le_sum_of_subset h

theorem Lost.mono (hlost : H.Lost freed k) (h : freed ⊆ freed') : H.Lost freed' k := by
  obtain ⟨n, hn, hle⟩ := hlost
  exact ⟨n, hn, hle.trans (drops_mono h k)⟩

theorem Lost.of_extra (hlost : H.Lost freed' k)
    (hextra : ∀ a ∈ freed', a ∉ freed → ∀ b, H.refs a b = 0) : H.Lost freed k := by
  obtain ⟨n, hn, hle⟩ := hlost
  refine ⟨n, hn, hle.trans ?_⟩
  unfold drops
  apply Finset.sum_le_sum_of_ne_zero
  intro a ha hne
  by_contra hnot
  exact hne (hextra a ha hnot k)

theorem free_of_lost (hfree : ∀ a ∈ freed, H.Free domain a) (hk : k ∈ domain)
    (hlost : H.Lost freed k) : H.Free domain k := by
  intro closed hclosed
  apply hclosed k hk
  apply hlost.mono
  exact fun a ha => hfree a ha closed hclosed

theorem mem_domain_of_free (hfree : H.Free domain k) : k ∈ domain ∧ H.count k ≠ none := by
  suffices h : k ∈ domain.filter fun a => H.count a ≠ none from Finset.mem_filter.mp h
  apply hfree
  intro a ha hlost
  obtain ⟨n, hn, -⟩ := hlost
  refine Finset.mem_filter.mpr ⟨ha, ?_⟩
  rw [hn]
  exact nofun

end Monotone

section Passes

variable [DecidableEq κ]

/-- What a pass over a list has freed, in turn or after it was put in late. -/
structure Pass (H : Holdings κ) (domain : Finset κ) (order : List κ) (freed : Finset κ) : Prop where
  free : ∀ k ∈ freed, H.Free domain k
  inTurn : ∀ i k, order[i]? = some k → k ∈ domain → H.count k ≠ none →
    (k ∈ freed ↔ H.Lost (freed.filter fun a => a ∈ order.take i) k)
  late : ∀ k ∈ domain, k ∉ order → H.count k ≠ some 0 → H.Lost freed k → k ∈ freed
  held : ∀ k ∈ freed, k ∉ order → H.count k ≠ some 0

open Classical in
/-- The things of a list before a position that can be freed. -/
noncomputable def freeBefore (H : Holdings κ) (domain : Finset κ) (order : List κ) (i : Nat) :
    Finset κ :=
  (order.take i).toFinset.filter fun a => H.Free domain a

variable {domain freed : Finset κ} {order : List κ} {excused : κ → Prop}

theorem mem_freeBefore {i : Nat} {k : κ} :
    k ∈ H.freeBefore domain order i ↔ k ∈ order.take i ∧ H.Free domain k := by
  classical
  unfold freeBefore
  rw [Finset.mem_filter, List.mem_toFinset]

/-- Every thing that can be freed, and is not excused, comes after those that hold it. -/
structure InTime (H : Holdings κ) (domain : Finset κ) (order : List κ) (excused : κ → Prop) :
    Prop where
  inTurn : ∀ i k, order[i]? = some k → H.Free domain k →
    excused k ∨ H.Lost (H.freeBefore domain order i) k
  listed : ∀ k ∈ domain, H.count k = some 0 → k ∈ order ∨ excused k

theorem Pass.filter_subset (h : H.Pass domain order freed) (i : Nat) :
    (freed.filter fun a => a ∈ order.take i) ⊆ H.freeBefore domain order i := by
  intro a ha
  obtain ⟨hfreed, hbefore⟩ := Finset.mem_filter.mp ha
  exact mem_freeBefore.mpr ⟨hbefore, h.free a hfreed⟩

theorem Pass.freed_of_inTime (h : H.Pass domain order freed)
    (hexcused : ∀ k, excused k → ∀ b, H.refs k b = 0)
    (htime : H.InTime domain order excused) (i : Nat) (k : κ) (hi : order[i]? = some k)
    (hfree : H.Free domain k) : k ∈ freed ∨ excused k := by
  induction i using Nat.strong_induction_on generalizing k with
  | _ i ih =>
    rcases htime.inTurn i k hi hfree with hexcuse | hlost
    · exact .inr hexcuse
    · obtain ⟨hk, hcounted⟩ := mem_domain_of_free hfree
      refine .inl ((h.inTurn i k hi hk hcounted).mpr ?_)
      apply hlost.of_extra
      intro a ha hnot
      obtain ⟨hbefore, hfreeA⟩ := mem_freeBefore.mp ha
      obtain ⟨j, hj⟩ := List.mem_iff_getElem?.mp hbefore
      rw [List.getElem?_take] at hj
      split at hj
      · next hlt =>
        rcases ih j hlt a hj hfreeA with hin | hexcuse
        · exact absurd (Finset.mem_filter.mpr ⟨hin, hbefore⟩) hnot
        · exact hexcused a hexcuse
      · cases hj

open Classical in
/-- A pass frees all that can be freed, the excused apart, iff its list is in time. -/
theorem Pass.complete_iff (h : H.Pass domain order freed)
    (hexcused : ∀ k, excused k → ∀ b, H.refs k b = 0) :
    (∀ k ∈ domain, H.Lost freed k → k ∈ freed ∨ excused k) ↔ H.InTime domain order excused := by
  constructor
  · intro hcomplete
    have hall (k : κ) (hfree : H.Free domain k) : k ∈ freed ∨ excused k := by
      let closed := freed ∪ domain.filter fun a => excused a
      have hin : k ∈ closed := by
        apply hfree
        intro a ha hlost
        have hlost : H.Lost freed a := by
          apply hlost.of_extra
          intro b hb hnot
          rcases Finset.mem_union.mp hb with hfreed | hexcuse
          · exact absurd hfreed hnot
          · exact hexcused b (Finset.mem_filter.mp hexcuse).2
        rcases hcomplete a ha hlost with hfreed | hexcuse
        · exact Finset.mem_union_left _ hfreed
        · exact Finset.mem_union_right _ (Finset.mem_filter.mpr ⟨ha, hexcuse⟩)
      rcases Finset.mem_union.mp hin with hfreed | hexcuse
      · exact .inl hfreed
      · exact .inr (Finset.mem_filter.mp hexcuse).2
    constructor
    · intro i k hi hfree
      rcases hall k hfree with hfreed | hexcuse
      · obtain ⟨hk, hcounted⟩ := mem_domain_of_free hfree
        exact .inr (((h.inTurn i k hi hk hcounted).mp hfreed).mono (h.filter_subset i))
      · exact .inl hexcuse
    · intro k hk hzero
      have hlost : H.Lost freed k := ⟨0, hzero, Nat.zero_le _⟩
      rcases hcomplete k hk hlost with hfreed | hexcuse
      · by_contra hnot
        have hout : k ∉ order := fun hin => hnot (.inl hin)
        exact h.held k hfreed hout hzero
      · exact .inr hexcuse
  · intro htime k hk hlost
    have hfree := free_of_lost h.free hk hlost
    by_cases hin : k ∈ order
    · obtain ⟨i, hi⟩ := List.mem_iff_getElem?.mp hin
      exact h.freed_of_inTime hexcused htime i k hi hfree
    · by_cases hzero : H.count k = some 0
      · exact .inr ((htime.listed k hk hzero).resolve_left hin)
      · exact .inl (h.late k hk hin hzero hlost)

end Passes

end Holdings
