import Mathlib.Tactic

/-!
Transition systems and their runs. A run may be restricted to steps that meet a
condition on the state before the step and the action taken. An invariant of
the restricted runs need be kept only by the steps that meet the condition.
-/

/-- A deterministic system: the actions enabled in a state are those with a result. -/
structure TransitionSystem (σ α : Type) where
  init : σ → Prop
  step : σ → α → Option σ

namespace TransitionSystem

variable {σ α : Type} (S : TransitionSystem σ α)

/-- The states reached by runs whose steps all meet the condition. -/
inductive Reachable (ok : σ → α → Prop) : σ → Prop where
  | init {s : σ} : S.init s → Reachable ok s
  | step {s t : σ} {a : α} : Reachable ok s → ok s a → S.step s a = some t → Reachable ok t

/-- Any step may be taken. -/
def anyStep : σ → α → Prop := fun _ _ => True

variable {S} {ok ok' : σ → α → Prop} {I : σ → Prop}

/-- What holds at the start and is kept by every step that meets the condition
holds in every state reached by such steps. -/
theorem Reachable.invariant (hinit : ∀ s, S.init s → I s)
    (hstep : ∀ s a t, I s → ok s a → S.step s a = some t → I t) {s : σ}
    (h : S.Reachable ok s) : I s := by
  induction h with
  | init hs => exact hinit _ hs
  | step _ hok hs ih => exact hstep _ _ _ ih hok hs

theorem Reachable.mono (himp : ∀ s a, ok s a → ok' s a) {s : σ} (h : S.Reachable ok s) :
    S.Reachable ok' s := by
  induction h with
  | init hs => exact .init hs
  | step _ hok hs ih => exact .step ih (himp _ _ hok) hs

instance (s : σ) (a : α) : Decidable (anyStep s a) := inferInstanceAs (Decidable True)

/-- Take the actions in order; `none` if one of them is not enabled or does not
meet the condition. -/
def runWhile (S : TransitionSystem σ α) (ok : σ → α → Prop) [∀ s a, Decidable (ok s a)] :
    σ → List α → Option σ
  | s, [] => some s
  | s, a :: as => if ok s a then (S.step s a).bind fun t => S.runWhile ok t as else none

theorem runWhile_append [∀ s a, Decidable (ok s a)] (s : σ) (as bs : List α) :
    S.runWhile ok s (as ++ bs) = (S.runWhile ok s as).bind fun t => S.runWhile ok t bs := by
  induction as generalizing s with
  | nil => rfl
  | cons a as ih =>
    rw [List.cons_append, runWhile, runWhile]
    split
    · rw [Option.bind_assoc]
      congr 1
      funext t
      exact ih t
    · rfl

theorem Reachable.of_runWhile [∀ s a, Decidable (ok s a)] {s t : σ} {as : List α}
    (h : S.Reachable ok s) (hrun : S.runWhile ok s as = some t) : S.Reachable ok t := by
  induction as generalizing s with
  | nil =>
    cases hrun
    exact h
  | cons a as ih =>
    rw [runWhile] at hrun
    split at hrun
    case isTrue hok =>
      obtain ⟨u, hu, hrun⟩ := Option.bind_eq_some_iff.mp hrun
      exact ih (.step h hok hu) hrun
    case isFalse => cases hrun

end TransitionSystem
