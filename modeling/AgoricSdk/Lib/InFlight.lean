import Mathlib.Data.List.Perm.Basic
import Mathlib.Data.List.Perm.Lattice
import Mathlib.Tactic

/-!
Lists of things in flight, of which any one may be taken or replaced next, and the entries of
one key among them.
-/

namespace InFlight

variable {α β : Type} {xs : List α} {i : ℕ} {x : α}

theorem perm_eraseIdx (h : xs[i]? = some x) : xs.Perm (x :: xs.eraseIdx i) := by
  obtain ⟨hi, rfl⟩ := List.getElem?_eq_some_iff.mp h
  exact (List.getElem_cons_eraseIdx_perm hi).symm

theorem perm_set (h : xs[i]? = some x) (y : α) : (xs.set i y).Perm (y :: xs.eraseIdx i) :=
  List.set_perm_cons_eraseIdx (List.getElem?_eq_some_iff.mp h).1 y

theorem map_set {f : α → β} (h : xs[i]? = some x) {y : α} (hf : f y = f x) :
    (xs.set i y).map f = xs.map f := by
  have hget : (xs.map f)[i]? = some (f x) := by
    rw [List.getElem?_map, h]
    rfl
  obtain ⟨hi, hself⟩ := List.getElem?_eq_some_iff.mp hget
  rw [List.map_set, hf, ← hself, List.set_getElem_self]

theorem map_filter_mapIdx {f : ℕ → α → α} {g : α → β} {p : α → Bool}
    (hp : ∀ i x, p (f i x) = p x) (hg : ∀ i x, g (f i x) = g x) :
    ((xs.mapIdx f).filter p).map g = (xs.filter p).map g := by
  induction xs generalizing f with
  | nil => rfl
  | cons x xs ih =>
    rw [List.mapIdx_cons, List.filter_cons, List.filter_cons, hp]
    split
    · rw [List.map_cons, List.map_cons, hg, ih (fun i => hp (i + 1)) (fun i => hg (i + 1))]
    · exact ih (fun i => hp (i + 1)) (fun i => hg (i + 1))

theorem map_mapIdx {f : ℕ → α → α} {g : α → β} (hg : ∀ i x, g (f i x) = g x) :
    (xs.mapIdx f).map g = xs.map g := by
  have h : ((xs.mapIdx f).filter fun _ => true).map g = (xs.filter fun _ => true).map g :=
    map_filter_mapIdx (fun _ _ => rfl) hg
  rwa [List.filter_true, List.filter_true] at h

theorem filter_eraseIdx {p : α → Bool} (h : xs[i]? = some x) (hp : p x = false) :
    (xs.eraseIdx i).filter p = xs.filter p := by
  induction xs generalizing i with
  | nil => rfl
  | cons y xs ih =>
    cases i with
    | zero =>
      cases h
      rw [List.eraseIdx_cons_zero, List.filter_cons_of_neg (by rw [hp]; exact Bool.false_ne_true)]
    | succ i =>
      rw [List.eraseIdx_cons_succ, List.filter_cons, List.filter_cons, ih h]

section Keys

variable {κ : Type} [DecidableEq κ]

theorem filter_append_self (xs : List (κ × α)) (k : κ) (x : α) :
    (xs ++ [(k, x)]).filter (fun entry => entry.1 = k) =
      xs.filter (fun entry => entry.1 = k) ++ [(k, x)] := by
  simp

theorem filter_append_other {k a : κ} (h : a ≠ k) (xs : List (κ × α)) (x : α) :
    (xs ++ [(k, x)]).filter (fun entry => entry.1 = a) =
      xs.filter (fun entry => entry.1 = a) := by
  simp [h.symm]

end Keys

end InFlight
