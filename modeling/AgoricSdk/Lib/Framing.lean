import Mathlib.Tactic

/-!
Reading frames off the front of a buffer that grows at its end. What comes behind a frame
does not change it, so that the frames of a text do not depend on when its parts arrived.
-/

namespace Framing

/-- What a reader finds at the front of its buffer. -/
inductive Reading (α β ε : Type) where
  | more
  | refused (fault : ε)
  | frame (content : β) (rest : List α)

structure FrameReader (α β ε : Type) where
  read : List α → Reading α β ε
  shrinks : ∀ {s content rest}, read s = .frame content rest → rest.length < s.length
  frame_append : ∀ {s content rest}, read s = .frame content rest →
    ∀ t, read (s ++ t) = .frame content (rest ++ t)
  refused_append : ∀ {s fault}, read s = .refused fault → ∀ t, read (s ++ t) = .refused fault

variable {α β ε : Type} {R : FrameReader α β ε}

/-- The frames in front of `t` in the first text. -/
inductive Reads (R : FrameReader α β ε) : List α → List β → List α → Prop where
  | nil (s : List α) : Reads R s [] s
  | cons {s rest t : List α} {content : β} {contents : List β}
      (hread : R.read s = .frame content rest) (h : Reads R rest contents t) :
      Reads R s (content :: contents) t

/-- No further frame stands at the front. -/
def FrameReader.Stops (R : FrameReader α β ε) (s : List α) : Prop :=
  ∀ content rest, R.read s ≠ .frame content rest

namespace Reads

theorem append {s t : List α} {contents : List β} (h : Reads R s contents t) (u : List α) :
    Reads R (s ++ u) contents (t ++ u) := by
  induction h with
  | nil s => exact .nil _
  | cons hread h ih => exact .cons (R.frame_append hread u) ih

theorem trans {s t u : List α} {contents others : List β} (h : Reads R s contents t)
    (h' : Reads R t others u) : Reads R s (contents ++ others) u := by
  induction h with
  | nil s => exact h'
  | cons hread h ih => exact .cons hread (ih h')

theorem complete {s t t' : List α} {contents contents' : List β} (h : Reads R s contents t)
    (hstop : R.Stops t) (h' : Reads R s contents' t') :
    ∃ others, contents = contents' ++ others ∧ Reads R t' others t := by
  induction h' generalizing contents with
  | nil s => exact ⟨contents, rfl, h⟩
  | cons hread' h' ih =>
    cases h with
    | nil => exact absurd hread' (hstop _ _)
    | cons hread h =>
      rw [hread] at hread'
      cases hread'
      obtain ⟨others, rfl, hothers⟩ := ih h
      exact ⟨others, rfl, hothers⟩

theorem unique {s t t' : List α} {contents contents' : List β} (h : Reads R s contents t)
    (hstop : R.Stops t) (h' : Reads R s contents' t') (hstop' : R.Stops t') :
    contents = contents' ∧ t = t' := by
  obtain ⟨others, rfl, hothers⟩ := h.complete hstop h'
  cases hothers with
  | nil => exact ⟨List.append_nil _, rfl⟩
  | cons hread _ => exact absurd hread (hstop' _ _)

theorem length_le {s t : List α} {contents : List β} (h : Reads R s contents t) :
    t.length ≤ s.length := by
  induction h with
  | nil s => exact le_rfl
  | cons hread h ih => exact ih.trans (R.shrinks hread).le

end Reads

theorem FrameReader.exists_stop (R : FrameReader α β ε) (s : List α) :
    ∃ contents t, Reads R s contents t ∧ R.Stops t := by
  induction hn : s.length using Nat.strong_induction_on generalizing s with
  | _ n ih =>
    cases hread : R.read s with
    | more => exact ⟨[], s, .nil s, fun _ _ h => by rw [hread] at h; cases h⟩
    | refused fault => exact ⟨[], s, .nil s, fun _ _ h => by rw [hread] at h; cases h⟩
    | frame content rest =>
      obtain ⟨contents, t, h, hstop⟩ := ih rest.length (hn ▸ R.shrinks hread) rest rfl
      exact ⟨content :: contents, t, .cons hread h, hstop⟩

end Framing
