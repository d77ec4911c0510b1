import AgoricSdk.Lib.DelimitedText
import Mathlib.Data.Char
import Mathlib.Data.List.Lex
import Mathlib.Tactic

/-!
Texts that are in the order of what they encode. Numerals are, once the number of digits stands
before the digits; so are lists, with a separator after each element that is less than any
character of it.
-/

namespace OrderedText

section Lists

variable {α : Type} [LinearOrder α] {c : α} {xs ys : List α}

theorem append_lt_append (h : xs < ys) (hlength : xs.length = ys.length) (rest rest' : List α) :
    xs ++ rest < ys ++ rest' := by
  induction xs generalizing ys with
  | nil =>
    rw [List.eq_nil_of_length_eq_zero hlength.symm] at h
    exact absurd h (lt_irrefl _)
  | cons x xs ih =>
    cases h with
    | rel hlt => exact .rel hlt
    | cons hlt => exact .cons (ih hlt (Nat.succ_injective hlength))

theorem append_separator_lt (h : xs < ys) (hys : ∀ y ∈ ys, c < y) (rest rest' : List α) :
    xs ++ c :: rest < ys ++ c :: rest' := by
  induction xs generalizing ys with
  | nil =>
    cases h
    exact .rel (hys _ List.mem_cons_self)
  | cons x xs ih =>
    cases h with
    | rel hlt => exact .rel hlt
    | cons hlt => exact .cons (ih hlt fun y hy => hys y (List.mem_cons_of_mem _ hy))

theorem terminated_strictMono {β : Type} [LinearOrder β] {encode : β → List α}
    (hencode : StrictMono encode) (hchars : ∀ b, ∀ x ∈ encode b, c < x) :
    StrictMono fun bs : List β => DelimitedText.terminated c (bs.map encode) := by
  intro bs bs' h
  dsimp only
  induction bs generalizing bs' with
  | nil =>
    cases h
    rename_i b bs'
    rw [List.map_cons, DelimitedText.terminated_cons]
    cases encode b <;> exact .nil
  | cons b bs ih =>
    cases h with
    | rel hlt =>
      rw [List.map_cons, List.map_cons, DelimitedText.terminated_cons,
        DelimitedText.terminated_cons]
      exact append_separator_lt (hencode hlt) (hchars _) _ _
    | cons hlt =>
      rw [List.map_cons, List.map_cons, DelimitedText.terminated_cons,
        DelimitedText.terminated_cons]
      exact List.Lex.append_left _ (.cons (ih hlt)) _

theorem lt_append_or_prefix (h : xs < ys) :
    (∀ rest rest' : List α, xs ++ rest < ys ++ rest') ∨ ∃ more, more ≠ [] ∧ ys = xs ++ more := by
  induction xs generalizing ys with
  | nil =>
    cases ys with
    | nil => exact absurd h (lt_irrefl _)
    | cons y ys => exact .inr ⟨y :: ys, List.cons_ne_nil _ _, rfl⟩
  | cons x xs ih =>
    cases h with
    | rel hlt => exact .inl fun _ _ => .rel hlt
    | cons hlt =>
      rcases ih hlt with hall | ⟨more, hne, rfl⟩
      · exact .inl fun rest rest' => .cons (hall rest rest')
      · exact .inr ⟨more, hne, rfl⟩

theorem append_lt_append_left {xs ys : List α} (before : List α) :
    before ++ xs < before ++ ys ↔ xs < ys := by
  induction before with
  | nil => rfl
  | cons x before ih => rw [List.cons_append, List.cons_append, List.cons_lt_cons_self, ih]

theorem eq_append_of_between {before zs : List α} (h : before ++ xs < zs)
    (h' : zs < before ++ ys) : ∃ more, zs = before ++ more ∧ xs < more ∧ more < ys := by
  induction before generalizing zs with
  | nil => exact ⟨zs, rfl, h, h'⟩
  | cons x before ih =>
    cases zs with
    | nil => cases h
    | cons z zs =>
      rw [List.cons_append, List.cons_lt_cons_iff] at h h'
      have heq : x = z := by
        rcases h with hlt | ⟨heq, -⟩
        · rcases h' with hlt' | ⟨heq', -⟩
          · exact absurd (hlt.trans hlt') (lt_irrefl _)
          · exact absurd heq' hlt.ne'
        · exact heq
      subst heq
      have hxs := (h.resolve_left (lt_irrefl _)).2
      have hys := (h'.resolve_left (lt_irrefl _)).2
      obtain ⟨more, rfl, hmore⟩ := ih hxs hys
      exact ⟨more, rfl, hmore⟩

end Lists

section Numerals

theorem isDigit_bounds {d : Char} (h : d.isDigit = true) : ' ' < d ∧ d < '~' := by
  have hbounds : 48 ≤ d.toNat ∧ d.toNat ≤ 57 := by
    simpa [Char.isDigit, UInt32.le_iff_toNat_le] using h
  simp only [Char.lt_def, UInt32.lt_iff_toNat_lt]
  exact ⟨hbounds.1.trans_lt' (by decide), hbounds.2.trans_lt (by decide)⟩

theorem digitChar_lt : ∀ m < 10, ∀ n < 10, m < n → m.digitChar < n.digitChar := by decide

theorem toDigits_lt {m n : ℕ} (h : m < n) :
    (Nat.toDigits 10 m).length < (Nat.toDigits 10 n).length ∨
      ((Nat.toDigits 10 m).length = (Nat.toDigits 10 n).length ∧
        Nat.toDigits 10 m < Nat.toDigits 10 n) := by
  induction n using Nat.strongRecOn generalizing m with
  | ind n ih =>
    by_cases hn : n < 10
    · have hm : m < 10 := h.trans hn
      rw [Nat.toDigits_of_lt_base hm, Nat.toDigits_of_lt_base hn]
      exact .inr ⟨rfl, .rel (digitChar_lt m hm n hn h)⟩
    · rw [Nat.toDigits_of_base_le (by decide) (not_lt.mp hn), List.length_append,
        List.length_singleton]
      by_cases hm : m < 10
      · rw [Nat.toDigits_of_lt_base hm]
        have hpos := Nat.length_toDigits_pos (b := 10) (n := n / 10)
        exact .inl (by simpa using hpos)
      · rw [Nat.toDigits_of_base_le (by decide) (not_lt.mp hm), List.length_append,
          List.length_singleton]
        rcases Nat.lt_or_ge (m / 10) (n / 10) with hlt | hge
        · rcases ih (n / 10) (by omega) hlt with hshort | ⟨hlength, hless⟩
          · exact .inl (by omega)
          · exact .inr ⟨by omega, append_lt_append hless hlength _ _⟩
        · have heq : m / 10 = n / 10 := by omega
          rw [heq]
          refine .inr ⟨rfl, List.Lex.append_left _ (.rel ?_) _⟩
          exact digitChar_lt _ (Nat.mod_lt _ (by decide)) _ (Nat.mod_lt _ (by decide)) (by omega)

/-- The number of digits, marked with a tilde for each digit it has itself beyond the first,
and after a colon the digits. -/
def numeral (n : ℕ) : List Char :=
  let digits := Nat.toDigits 10 n
  let count := Nat.toDigits 10 digits.length
  List.replicate (count.length - 1) '~' ++ (count ++ ':' :: digits)

theorem numeral_strictMono : StrictMono numeral := by
  intro m n h
  unfold numeral
  dsimp only
  rcases toDigits_lt h with hfewer | ⟨hlength, hless⟩
  · rcases toDigits_lt hfewer with hshort | ⟨hlength, hless⟩
    · -- Where the marks of the one end, the other one still has a mark.
      obtain ⟨k, hk⟩ := Nat.exists_eq_add_of_lt hshort
      have hpos := Nat.length_toDigits_pos (b := 10) (n := (Nat.toDigits 10 m).length)
      rw [show (Nat.toDigits 10 (Nat.toDigits 10 n).length).length - 1 =
          ((Nat.toDigits 10 (Nat.toDigits 10 m).length).length - 1) + (k + 1) by omega,
        List.replicate_add, List.append_assoc]
      apply List.Lex.append_left
      cases hcount : Nat.toDigits 10 (Nat.toDigits 10 m).length with
      | nil => exact absurd hcount Nat.toDigits_ne_nil
      | cons d ds =>
        apply List.Lex.rel
        have hdigit : d.isDigit = true :=
          Nat.isDigit_of_mem_toDigits (b := 10) (n := (Nat.toDigits 10 m).length) (by decide)
            (by decide) (hcount ▸ List.mem_cons_self)
        exact (isDigit_bounds hdigit).2
    · rw [hlength]
      exact List.Lex.append_left _ (append_lt_append hless hlength _ _) _
  · rw [hlength]
    exact List.Lex.append_left _ (List.Lex.append_left _ (.cons hless) _) _

theorem lt_of_mem_numeral {n : ℕ} {x : Char} (h : x ∈ numeral n) : ' ' < x := by
  have hdigits : ∀ m, x ∈ Nat.toDigits 10 m → ' ' < x := fun m hx =>
    (isDigit_bounds (Nat.isDigit_of_mem_toDigits (by decide) (by decide) hx)).1
  unfold numeral at h
  rcases List.mem_append.mp h with h | h
  · rw [(List.mem_replicate.mp h).2]
    decide
  · rcases List.mem_append.mp h with h | h
    · exact hdigits _ h
    · rcases List.mem_cons.mp h with rfl | h
      · decide
      · exact hdigits _ h

end Numerals

end OrderedText
