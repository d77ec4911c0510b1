import Mathlib.Data.Finset.Lattice.Basic
import Mathlib.Logic.Relation
import Mathlib.Tactic

/-!
Sets of tasks that can be completed one after the other, each after the tasks it
requires. Where all tasks can be, the sets that can be completed are those that
include what their tasks require, and a task is ready until all are completed.
-/

variable {V : Type} [DecidableEq V] {requires : V → V → Prop}

/-- The tasks can be completed in some order that respects what they require. -/
inductive Completable (requires : V → V → Prop) : Finset V → Prop where
  | empty : Completable requires ∅
  | complete {S : Finset V} {v : V} : Completable requires S → (∀ u, requires v u → u ∈ S) →
      Completable requires (insert v S)

namespace Completable

variable {S T : Finset V} {u v : V}

theorem closed (h : Completable requires S) (hv : v ∈ S) (hu : requires v u) : u ∈ S := by
  induction h with
  | empty => cases hv
  | complete _ hrequires ih =>
    apply Finset.mem_insert_of_mem
    rcases Finset.mem_insert.mp hv with rfl | hv
    · exact hrequires u hu
    · exact ih hv

theorem restrict (h : Completable requires S) (hT : ∀ v ∈ T, ∀ u, requires v u → u ∈ T) :
    Completable requires (S ∩ T) := by
  induction h with
  | empty =>
    rw [Finset.empty_inter]
    exact .empty
  | @complete S v _ hrequires ih =>
    by_cases hv : v ∈ T
    · rw [Finset.insert_inter_of_mem hv]
      apply ih.complete
      intro u hu
      exact Finset.mem_inter.mpr ⟨hrequires u hu, hT v hv u hu⟩
    · rwa [Finset.insert_inter_of_notMem hv]

theorem of_subset (h : Completable requires S) (hsub : T ⊆ S)
    (hT : ∀ v ∈ T, ∀ u, requires v u → u ∈ T) : Completable requires T := by
  have hinter := h.restrict hT
  rwa [Finset.inter_eq_right.mpr hsub] at hinter

theorem exists_ready (h : Completable requires S) (hmore : ¬ S ⊆ T) :
    ∃ v ∈ S, v ∉ T ∧ ∀ u, requires v u → u ∈ T := by
  induction h with
  | empty => exact absurd (Finset.empty_subset T) hmore
  | @complete S v _ hrequires ih =>
    by_cases hsub : S ⊆ T
    · refine ⟨v, Finset.mem_insert_self v S, ?_, fun u hu => hsub (hrequires u hu)⟩
      intro hv
      exact hmore (Finset.insert_subset hv hsub)
    · obtain ⟨w, hw, hready⟩ := ih hsub
      exact ⟨w, Finset.mem_insert_of_mem hw, hready⟩

theorem acyclic (h : Completable requires S) (hv : v ∈ S) : ¬ Relation.TransGen requires v v := by
  induction h generalizing v with
  | empty => cases hv
  | @complete S w hS hrequires ih =>
    have hinside : ∀ {x y : V}, Relation.TransGen requires x y →
        (∀ u, requires x u → u ∈ S) → y ∈ S := by
      intro x y hpath hx
      induction hpath with
      | single hstep => exact hx _ hstep
      | tail _ hstep hmem => exact hS.closed hmem hstep
    rcases Finset.mem_insert.mp hv with rfl | hmem
    · intro hcycle
      exact ih (hinside hcycle hrequires) hcycle
    · exact ih hmem

end Completable
