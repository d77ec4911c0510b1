import Mathlib.Tactic

/-!
Functions that may throw: what each step did where mapping, checking or folding over
a list did not throw, and which element is to blame where it did.
-/

section Throwing

variable {α β γ ε : Type}

theorem bind_eq_ok {x : Except ε α} {f : α → Except ε β} {b : β} :
    x >>= f = .ok b ↔ ∃ a, x = .ok a ∧ f a = .ok b := by
  cases x with
  | error e => exact ⟨nofun, fun ⟨_, h, _⟩ => nomatch h⟩
  | ok a =>
    constructor
    · exact fun h => ⟨a, rfl, h⟩
    · rintro ⟨_, ⟨⟩, h⟩
      exact h

theorem bind_eq_error {x : Except ε α} {f : α → Except ε β} {e : ε} :
    x >>= f = .error e ↔ x = .error e ∨ ∃ a, x = .ok a ∧ f a = .error e := by
  cases x with
  | error e' =>
    constructor
    · intro h
      cases h
      exact .inl rfl
    · rintro (h | ⟨a, h, -⟩)
      · cases h
        rfl
      · cases h
  | ok a =>
    constructor
    · exact fun h => .inr ⟨a, rfl, h⟩
    · rintro (h | ⟨a', h, hf⟩)
      · cases h
      · cases h
        exact hf

theorem eq_ok_of_toOption {x : Except ε α} {a : α} (h : x.toOption = some a) : x = .ok a := by
  cases x with
  | error e => cases h
  | ok b => exact congrArg Except.ok (Option.some.inj h)

theorem mapError_ok_iff {ε' : Type} {f : ε → ε'} {x : Except ε α} {a : α} :
    x.mapError f = .ok a ↔ x = .ok a := by
  cases x <;> simp [Except.mapError]

theorem exists_mapM_ok (f : α → Except ε β) (xs : List α) (h : ∀ x ∈ xs, ∃ y, f x = .ok y) :
    ∃ ys, xs.mapM f = .ok ys := by
  induction xs with
  | nil => exact ⟨[], rfl⟩
  | cons x xs ih =>
    obtain ⟨y, hy⟩ := h x List.mem_cons_self
    obtain ⟨ys, hys⟩ := ih fun x' hx' => h x' (List.mem_cons_of_mem _ hx')
    refine ⟨y :: ys, ?_⟩
    rw [List.mapM_cons, hy, hys]
    rfl

theorem mapM_cons_eq_ok {f : α → Except ε β} {x : α} {xs : List α} {ys : List β} :
    (x :: xs).mapM f = .ok ys ↔ ∃ y ys', f x = .ok y ∧ xs.mapM f = .ok ys' ∧ ys = y :: ys' := by
  rw [List.mapM_cons, bind_eq_ok]
  constructor
  · rintro ⟨y, hy, h⟩
    obtain ⟨ys', hys, h⟩ := bind_eq_ok.mp h
    cases h
    exact ⟨y, ys', hy, hys, rfl⟩
  · rintro ⟨y, ys', hy, hys, rfl⟩
    exact ⟨y, hy, bind_eq_ok.mpr ⟨ys', hys, rfl⟩⟩

theorem mapM_map_eq_ok {f : β → Except ε γ} {g : α → β} {g' : α → γ} {xs : List α}
    (h : ∀ x ∈ xs, f (g x) = .ok (g' x)) : (xs.map g).mapM f = .ok (xs.map g') := by
  induction xs with
  | nil => rfl
  | cons x xs ih =>
    have hrest := ih fun x' hx' => h x' (List.mem_cons_of_mem _ hx')
    exact mapM_cons_eq_ok.mpr ⟨_, _, h x List.mem_cons_self, hrest, rfl⟩

theorem mapM_ok_spec {f : α → Except ε β} {xs : List α} {ys : List β} (h : xs.mapM f = .ok ys) :
    (∀ y ∈ ys, ∃ x ∈ xs, f x = .ok y) ∧ ∀ x ∈ xs, ∃ y ∈ ys, f x = .ok y := by
  induction xs generalizing ys with
  | nil =>
    cases h
    exact ⟨nofun, nofun⟩
  | cons x xs ih =>
    obtain ⟨y, ys', hx, hxs, rfl⟩ := mapM_cons_eq_ok.mp h
    obtain ⟨hsound, hcomplete⟩ := ih hxs
    constructor
    · intro y' hy'
      rcases List.mem_cons.mp hy' with rfl | hy'
      · exact ⟨x, List.mem_cons_self, hx⟩
      · obtain ⟨x', hx', heq⟩ := hsound y' hy'
        exact ⟨x', List.mem_cons_of_mem _ hx', heq⟩
    · intro x' hx'
      rcases List.mem_cons.mp hx' with rfl | hx'
      · exact ⟨y, List.mem_cons_self, hx⟩
      · obtain ⟨y', hy', heq⟩ := hcomplete x' hx'
        exact ⟨y', List.mem_cons_of_mem _ hy', heq⟩

theorem map_eq_of_mapM_ok {f : α → Except ε β} {g : α → γ} {g' : β → γ}
    (hf : ∀ x y, f x = .ok y → g x = g' y) {xs : List α} {ys : List β}
    (h : xs.mapM f = .ok ys) : xs.map g = ys.map g' := by
  induction xs generalizing ys with
  | nil =>
    cases h
    rfl
  | cons x xs ih =>
    obtain ⟨y, ys', hx, hxs, rfl⟩ := mapM_cons_eq_ok.mp h
    rw [List.map_cons, List.map_cons, hf x y hx, ih hxs]

theorem forM_eq_ok {f : α → Except ε Unit} {xs : List α} :
    xs.forM f = .ok () ↔ ∀ x ∈ xs, f x = .ok () := by
  induction xs with
  | nil => exact ⟨fun _ => nofun, fun _ => rfl⟩
  | cons x xs ih =>
    rw [List.forall_mem_cons, ← ih]
    show (f x >>= fun _ => xs.forM f) = _ ↔ _
    rw [bind_eq_ok]
    constructor
    · rintro ⟨⟨⟩, hx, hxs⟩
      exact ⟨hx, hxs⟩
    · rintro ⟨hx, hxs⟩
      exact ⟨(), hx, hxs⟩

theorem exists_error_of_forM {f : α → Except ε Unit} {xs : List α} {e : ε}
    (h : xs.forM f = .error e) : ∃ x ∈ xs, f x = .error e := by
  induction xs with
  | nil => cases h
  | cons x xs ih =>
    cases hx : f x with
    | error e' =>
      have heq : (f x >>= fun _ => xs.forM f) = .error e := h
      rw [hx] at heq
      cases heq
      exact ⟨x, List.mem_cons_self, hx⟩
    | ok _ =>
      have hxs : (f x >>= fun _ => xs.forM f) = .error e := h
      rw [hx] at hxs
      obtain ⟨x', hx', herror⟩ := ih hxs
      exact ⟨x', List.mem_cons_of_mem _ hx', herror⟩

theorem foldlM_invariant {f : β → α → Except ε β} {P : List α → β → Prop} {xs : List α}
    {b b' : β} (hstep : ∀ done, ∀ x ∈ xs, ∀ b b', P done b → f b x = .ok b' → P (done ++ [x]) b')
    (hinit : P [] b) (h : xs.foldlM f b = .ok b') : P xs b' := by
  have hfold : ∀ (rest done : List α) (b : β), (∀ x ∈ rest, x ∈ xs) → P done b →
      rest.foldlM f b = .ok b' → P (done ++ rest) b' := by
    intro rest
    induction rest with
    | nil =>
      intro done b _ hb hrun
      cases hrun
      rw [List.append_nil]
      exact hb
    | cons x rest ih =>
      intro done b hsub hb hrun
      rw [List.foldlM_cons] at hrun
      obtain ⟨b₁, hx, hrest⟩ := bind_eq_ok.mp hrun
      have hx₁ := hstep done x (hsub x List.mem_cons_self) b b₁ hb hx
      have hdone := ih (done ++ [x]) b₁ (fun y hy => hsub y (List.mem_cons_of_mem _ hy)) hx₁ hrest
      rw [List.append_assoc] at hdone
      exact hdone
  exact hfold xs [] b (fun x hx => hx) hinit h

end Throwing
