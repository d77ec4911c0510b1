import Mathlib.Tactic

/-!
Texts made of fields with a separator between them, and the ways to take them
apart: at the first separator, or at every one.
-/

namespace DelimitedText

variable {α : Type} [DecidableEq α]

/-- What stands before and after the first `c`. -/
def cutAt (c : α) : List α → Option (List α × List α)
  | [] => none
  | x :: s => if x = c then some ([], s) else (cutAt c s).map fun cut => (x :: cut.1, cut.2)

theorem cutAt_append {c : α} {s : List α} (h : c ∉ s) (rest : List α) :
    cutAt c (s ++ c :: rest) = some (s, rest) := by
  induction s with
  | nil => exact if_pos rfl
  | cons x s ih =>
    obtain ⟨hx, hs⟩ := not_or.mp (mt List.mem_cons.mpr h)
    rw [List.cons_append, cutAt, if_neg (Ne.symm hx), ih hs]
    rfl

example : cutAt ',' ['a', ',', 'b'] = some (['a'], ['b']) := by decide +kernel

theorem cutAt_eq_some {c : α} {s before rest : List α} :
    cutAt c s = some (before, rest) ↔ s = before ++ c :: rest ∧ c ∉ before := by
  constructor
  · intro h
    induction s generalizing before with
    | nil => cases h
    | cons x s ih =>
      rw [cutAt] at h
      split at h
      case isTrue hx =>
        cases h
        exact ⟨hx ▸ rfl, List.not_mem_nil⟩
      case isFalse hx =>
        obtain ⟨cut, hcut, heq⟩ := Option.map_eq_some_iff.mp h
        cases heq
        obtain ⟨rfl, hc⟩ := ih hcut
        exact ⟨rfl, List.not_mem_cons_of_ne_of_not_mem (Ne.symm hx) hc⟩
  · rintro ⟨rfl, hc⟩
    exact cutAt_append hc rest

theorem findIdx?_eq_cutAt (c : α) (s : List α) :
    (s.findIdx? fun x => x = c) = (cutAt c s).map fun cut => cut.1.length := by
  induction s with
  | nil => rfl
  | cons x s ih =>
    rw [cutAt, List.findIdx?_cons]
    split
    case isTrue hx => rw [if_pos (of_decide_eq_true hx)]; rfl
    case isFalse hx =>
      rw [if_neg fun heq => hx (decide_eq_true heq), ih, Option.map_map, Option.map_map]
      rfl

theorem mem_of_cutAt {c x : α} {s before rest : List α} (h : cutAt c s = some (before, rest))
    (hx : x ∈ rest) : x ∈ s := by
  induction s generalizing before with
  | nil => cases h
  | cons y s ih =>
    rw [cutAt] at h
    split at h
    case isTrue =>
      cases h
      exact List.mem_cons_of_mem _ hx
    case isFalse =>
      obtain ⟨cut, hcut, heq⟩ := Option.map_eq_some_iff.mp h
      cases heq
      exact List.mem_cons_of_mem _ (ih hcut)

theorem notMem_of_mem_splitOn {c : α} {s piece : List α} (h : piece ∈ s.splitOn c) : c ∉ piece := by
  induction s generalizing piece with
  | nil =>
    rw [List.splitOn_nil, List.mem_singleton] at h
    subst h
    exact List.not_mem_nil
  | cons x s ih =>
    rw [List.splitOn_cons_eq_if_modifyHead] at h
    split at h
    case isTrue =>
      rcases List.mem_cons.mp h with rfl | h
      · exact List.not_mem_nil
      · exact ih h
    case isFalse hx =>
      obtain ⟨first, others, heq⟩ := List.exists_cons_of_ne_nil (List.splitOn_ne_nil c s)
      rw [heq] at h ih
      rcases List.mem_cons.mp h with rfl | h
      · intro hmem
        rcases List.mem_cons.mp hmem with rfl | hmem
        · exact hx (beq_self_eq_true c)
        · exact ih List.mem_cons_self hmem
      · exact ih (List.mem_cons_of_mem _ h)

omit [DecidableEq α] in
/-- The fields after the first, each with its separator. -/
theorem intercalate_cons (c : α) (first : List α) (others : List (List α)) :
    [c].intercalate (first :: others) = first ++ others.flatMap fun field => c :: field := by
  induction others generalizing first with
  | nil => simp
  | cons field others ih =>
    rw [List.intercalate_cons_cons, ih, List.flatMap_cons, List.append_assoc, List.cons_append,
      List.nil_append, List.cons_append]

omit [DecidableEq α] in
theorem mem_intercalate {c x : α} {fields : List (List α)} (h : x ∈ [c].intercalate fields) :
    x = c ∨ ∃ field ∈ fields, x ∈ field := by
  cases fields with
  | nil => simp at h
  | cons first others =>
    rw [intercalate_cons] at h
    rcases List.mem_append.mp h with h | h
    · exact .inr ⟨first, List.mem_cons_self, h⟩
    · obtain ⟨field, hfield, h⟩ := List.mem_flatMap.mp h
      rcases List.mem_cons.mp h with h | h
      · exact .inl h
      · exact .inr ⟨field, List.mem_cons_of_mem _ hfield, h⟩

theorem cutAt_intercalate {c stop : α} (hc : stop ≠ c) {fields : List (List α)}
    (hfields : ∀ field ∈ fields, stop ∉ field) (body : List α) :
    cutAt stop ([c].intercalate fields ++ stop :: body) = some ([c].intercalate fields, body) := by
  apply cutAt_append
  intro h
  rcases mem_intercalate h with h | ⟨field, hfield, h⟩
  · exact hc h
  · exact hfields field hfield h

/-- The fields, with the separator after each. -/
def terminated (c : α) (fields : List (List α)) : List α := fields.flatMap fun field => field ++ [c]

omit [DecidableEq α] in
theorem terminated_cons (c : α) (field : List α) (fields : List (List α)) :
    terminated c (field :: fields) = field ++ c :: terminated c fields := by
  simp [terminated]

theorem terminated_isPrefix {c : α} {fields others : List (List α)}
    (hfields : ∀ field ∈ fields, c ∉ field) (hothers : ∀ field ∈ others, c ∉ field) :
    List.IsPrefix (terminated c fields) (terminated c others) ↔ List.IsPrefix fields others := by
  constructor
  · intro h
    induction fields generalizing others with
    | nil => exact List.nil_prefix
    | cons field fields ih =>
      obtain ⟨hfield, hfields⟩ := List.forall_mem_cons.mp hfields
      obtain ⟨rest, hrest⟩ := h
      rw [terminated_cons, List.append_assoc, List.cons_append] at hrest
      cases others with
      | nil =>
        have hnil := (List.append_eq_nil_iff.mp hrest).2
        cases hnil
      | cons other others =>
        obtain ⟨hother, hothers'⟩ := List.forall_mem_cons.mp hothers
        rw [terminated_cons] at hrest
        have hcut := congrArg (cutAt c) hrest
        rw [cutAt_append hfield, cutAt_append hother] at hcut
        obtain ⟨rfl, hsame⟩ := Prod.mk.inj (Option.some.inj hcut)
        exact (List.prefix_cons_inj field).mpr (ih hfields hothers' ⟨rest, hsame⟩)
  · rintro ⟨rest, rfl⟩
    exact ⟨terminated c rest, by simp [terminated]⟩

end DelimitedText
