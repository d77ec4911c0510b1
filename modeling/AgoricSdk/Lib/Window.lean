import Mathlib.Tactic

/-!
Windows onto a numbered log. The entries of a log are numbered from one. A
window shows consecutive entries with their numbers. A reader who has the first
entries of the log and looks at a window which leaves no gap after them takes
what is new to it, and then has the first entries again.
-/

namespace Window

variable {α : Type}

/-- The entries with their numbers, the first being the one after `low`. -/
def numbered : Nat → List α → List (Nat × α)
  | _, [] => []
  | low, x :: xs => (low + 1, x) :: numbered (low + 1) xs

theorem lt_of_mem_numbered {low : Nat} {xs : List α} {e : Nat × α} (h : e ∈ numbered low xs) :
    low < e.1 ∧ e.1 ≤ low + xs.length := by
  induction xs generalizing low with
  | nil => cases h
  | cons x xs ih =>
    rw [List.length_cons]
    obtain rfl | h := List.mem_cons.mp h
    · constructor <;> dsimp only <;> omega
    · have := ih h
      omega

theorem mem_numbered_iff {low n : Nat} {xs : List α} {x : α} :
    (n, x) ∈ numbered low xs ↔ low < n ∧ xs[n - low - 1]? = some x := by
  induction xs generalizing low with
  | nil => simp [numbered]
  | cons y ys ih =>
    rw [numbered, List.mem_cons, ih]
    by_cases hn : n = low + 1
    · subst hn
      simp [eq_comm]
    · have hne : (n, x) ≠ (low + 1, y) := fun he => hn (congrArg Prod.fst he)
      constructor
      · intro h
        obtain ⟨hlt, hx⟩ := h.resolve_left hne
        have hindex : n - low - 1 = (n - (low + 1) - 1) + 1 := by omega
        rw [hindex, List.getElem?_cons_succ]
        exact ⟨by omega, hx⟩
      · rintro ⟨hlt, hx⟩
        have hindex : n - low - 1 = (n - (low + 1) - 1) + 1 := by omega
        rw [hindex, List.getElem?_cons_succ] at hx
        exact .inr ⟨by omega, hx⟩

theorem pairwise_numbered (low : Nat) (xs : List α) :
    (numbered low xs).Pairwise fun a b => a.1 < b.1 := by
  induction xs generalizing low with
  | nil => exact .nil
  | cons x xs ih =>
    apply List.Pairwise.cons _ (ih (low + 1))
    intro e he
    exact (lt_of_mem_numbered he).1

/-- The messages are entries of the log, in order from the one after `low`. -/
def Shows (log : List α) (low : Nat) (messages : List (Nat × α)) : Prop :=
  low ≤ log.length ∧ ∃ part, part <+: log.drop low ∧ messages = numbered low part

theorem shows_rest {log : List α} {low : Nat} (h : low ≤ log.length) :
    Shows log low (numbered low (log.drop low)) := ⟨h, _, List.prefix_rfl, rfl⟩

theorem Shows.grow {log log' : List α} {low : Nat} {messages : List (Nat × α)}
    (h : Shows log low messages) (hlog : log <+: log') : Shows log' low messages := by
  obtain ⟨hlow, part, hpart, rfl⟩ := h
  obtain ⟨more, rfl⟩ := hlog
  refine ⟨?_, part, ?_, rfl⟩
  · rw [List.length_append]
    omega
  · rw [List.drop_append_of_le_length hlow]
    exact hpart.trans (List.prefix_append _ _)

theorem take_append_part {log part : List α} {low d : Nat} (hpart : part <+: log.drop low)
    (hlow : low ≤ d) :
    log.take d ++ part.drop (d - low) = log.take (max d (low + part.length)) := by
  have hsplit : low + part.length - d = part.length - (d - low) := by omega
  have hmax : max d (low + part.length) = d + (low + part.length - d) := by omega
  have hdrop : low + (d - low) = d := by omega
  rw [hmax, List.take_add, hsplit]
  congr 1
  conv_lhs => rw [List.prefix_iff_eq_take.mp hpart]
  rw [List.drop_take, List.drop_drop, hdrop]

end Window
