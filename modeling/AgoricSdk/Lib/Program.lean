import Mathlib.Tactic

/-!
Stateful programs that may stop with a fault, and the rules to reason about
them. A program is an `EStateM` action, so a fault keeps every change made
before it, as an exception thrown by imperative code does. `Wp` gives the
weakest precondition of a postcondition for the normal exit and another one
for the faulty exit. The rules below are the usual ones: sequencing,
consequence, branching, loops over lists with an invariant, and a handler that
turns a fault into a value. `Moves` speaks about two states instead: a preorder
that every exit respects. It serves for frames, and an invariant is the case of
the preorder `P s → P t`.
-/

namespace StateProgram

variable {ε σ α β γ : Type}

/-- The program run from `s` either ends normally with `Q`, or faults with `E`. -/
def Wp (m : EStateM ε σ α) (Q : α → σ → Prop) (E : ε → σ → Prop) (s : σ) : Prop :=
  match m s with
  | .ok a t => Q a t
  | .error e t => E e t

/-- Run a program and return its fault, if any, as a value. -/
def attempt (m : EStateM ε σ α) : EStateM ε σ (Except ε α) := fun s =>
  match m s with
  | .ok a t => .ok (.ok a) t
  | .error e t => .ok (.error e) t

/-- Run the program and keep the state only, whatever the exit. -/
def finalState (m : EStateM ε σ α) (s : σ) : σ :=
  match m s with
  | .ok _ t => t
  | .error _ t => t

section Rules

variable {Q Q' : α → σ → Prop} {E E' : ε → σ → Prop} {s : σ}

theorem wp_mono {m : EStateM ε σ α} (h : Wp m Q E s)
    (hQ : ∀ a t, Q a t → Q' a t) (hE : ∀ e t, E e t → E' e t) : Wp m Q' E' s := by
  unfold Wp at *
  cases hm : m s with
  | ok a t => rw [hm] at h; exact hQ a t h
  | error e t => rw [hm] at h; exact hE e t h

theorem wp_of_forall {m : EStateM ε σ α} (hQ : ∀ a t, Q a t) (hE : ∀ e t, E e t) :
    Wp m Q E s := by
  unfold Wp
  cases m s with
  | ok a t => exact hQ a t
  | error e t => exact hE e t

theorem wp_and {m : EStateM ε σ α} (h : Wp m Q E s) (h' : Wp m Q' E' s) :
    Wp m (fun a t => Q a t ∧ Q' a t) (fun e t => E e t ∧ E' e t) s := by
  unfold Wp at *
  cases hm : m s with
  | ok a t => rw [hm] at h h'; exact ⟨h, h'⟩
  | error e t => rw [hm] at h h'; exact ⟨h, h'⟩

theorem wp_of_ok {m : EStateM ε σ α} {a : α} {t : σ} (h : Wp m Q E s)
    (hm : m s = .ok a t) : Q a t := by
  unfold Wp at h
  rw [hm] at h
  exact h

theorem wp_of_error {m : EStateM ε σ α} {e : ε} {t : σ} (h : Wp m Q E s)
    (hm : m s = .error e t) : E e t := by
  unfold Wp at h
  rw [hm] at h
  exact h

@[simp] theorem wp_pure (a : α) : Wp (pure a) Q E s ↔ Q a s := Iff.rfl

@[simp] theorem wp_bind (m : EStateM ε σ β) (f : β → EStateM ε σ α) :
    Wp (m >>= f) Q E s ↔ Wp m (fun b t => Wp (f b) Q E t) E s := by
  change Wp (EStateM.bind m f) Q E s ↔ _
  unfold Wp EStateM.bind
  cases m s <;> rfl

@[simp] theorem wp_map (m : EStateM ε σ β) (f : β → α) :
    Wp (f <$> m) Q E s ↔ Wp m (fun b t => Q (f b) t) E s := by
  change Wp (EStateM.map f m) Q E s ↔ _
  unfold Wp EStateM.map
  cases m s <;> rfl

@[simp] theorem wp_get {Q : σ → σ → Prop} : Wp get Q E s ↔ Q s s := Iff.rfl

@[simp] theorem wp_set {Q : PUnit → σ → Prop} (t : σ) : Wp (set t) Q E s ↔ Q ⟨⟩ t := Iff.rfl

@[simp] theorem wp_modify {Q : PUnit → σ → Prop} (f : σ → σ) :
    Wp (modify f) Q E s ↔ Q ⟨⟩ (f s) := Iff.rfl

@[simp] theorem wp_throw (e : ε) : Wp (throw e) Q E s ↔ E e s := Iff.rfl

@[simp] theorem wp_attempt {Q : Except ε α → σ → Prop} (m : EStateM ε σ α) :
    Wp (attempt m) Q E s ↔ Wp m (fun a t => Q (.ok a) t) (fun e t => Q (.error e) t) s := by
  unfold Wp attempt
  cases m s <;> rfl

theorem wp_ite {c : Prop} [Decidable c] {m n : EStateM ε σ α}
    (hm : c → Wp m Q E s) (hn : ¬ c → Wp n Q E s) : Wp (if c then m else n) Q E s := by
  split
  · exact hm ‹_›
  · exact hn ‹_›

theorem finalState_of_wp {P : σ → Prop} {m : EStateM ε σ α}
    (h : Wp m (fun _ t => P t) (fun _ t => P t) s) : P (finalState m s) := by
  unfold Wp at h
  unfold finalState
  cases hm : m s with
  | ok a t => rw [hm] at h; exact h
  | error e t => rw [hm] at h; exact h

end Rules

section Runs

variable {s t : σ}

theorem ofExcept_run {e : Except ε α} {a : α} (h : e = .ok a) :
    (MonadExcept.ofExcept e : EStateM ε σ α) s = .ok a s := by
  rw [h]
  rfl

theorem get_run : (get : EStateM ε σ σ) s = .ok s s := rfl

theorem bind_run {m : EStateM ε σ α} {f : α → EStateM ε σ β} {a : α} (h : m s = .ok a t) :
    (m >>= f) s = f a t := by
  change EStateM.bind m f s = _
  rw [EStateM.bind, h]

theorem wp_of_run {m : EStateM ε σ α} {a : α} (h : m s = .ok a t) {Q : α → σ → Prop}
    {E : ε → σ → Prop} : Wp m Q E s ↔ Q a t := by
  rw [Wp, h]

theorem mapM_run {f : β → EStateM ε σ γ} {g : β → γ} {xs : List β}
    (h : ∀ x ∈ xs, f x s = .ok (g x) s) : xs.mapM f s = .ok (xs.map g) s := by
  induction xs with
  | nil => rfl
  | cons x xs ih =>
    rw [List.mapM_cons, bind_run (h x (List.mem_cons_self ..)),
      bind_run (ih fun y hy => h y (List.mem_cons_of_mem _ hy))]
    rfl

theorem forM_run {f : β → EStateM ε σ PUnit} {xs : List β} (h : ∀ x ∈ xs, f x s = .ok ⟨⟩ s) :
    xs.forM f s = .ok ⟨⟩ s := by
  induction xs with
  | nil => rfl
  | cons x xs ih =>
    change (f x >>= fun _ => xs.forM f) s = _
    rw [bind_run (h x (List.mem_cons_self ..))]
    exact ih fun y hy => h y (List.mem_cons_of_mem _ hy)

theorem filterAuxM_run {f : β → EStateM ε σ Bool} {g : β → Bool} {xs : List β} (acc : List β)
    (h : ∀ x ∈ xs, f x s = .ok (g x) s) :
    List.filterAuxM f xs acc s = .ok ((xs.filter g).reverse ++ acc) s := by
  induction xs generalizing acc with
  | nil => rfl
  | cons x xs ih =>
    rw [List.filterAuxM, bind_run (h x (List.mem_cons_self ..)),
      ih _ fun y hy => h y (List.mem_cons_of_mem _ hy), List.filter_cons]
    cases g x <;> simp

theorem filterM_run {f : β → EStateM ε σ Bool} {g : β → Bool} {xs : List β}
    (h : ∀ x ∈ xs, f x s = .ok (g x) s) : xs.filterM f s = .ok (xs.filter g) s := by
  rw [List.filterM, bind_run (filterAuxM_run [] h), List.append_nil, List.reverse_reverse]
  rfl

end Runs

section Loops

variable {E : ε → σ → Prop}

theorem wp_forM {I : List β → σ → Prop} {f : β → EStateM ε σ PUnit}
    (step : ∀ x xs t, I (x :: xs) t → Wp (f x) (fun _ u => I xs u) E t) :
    ∀ (xs : List β) (s : σ), I xs s → Wp (xs.forM f) (fun _ t => I [] t) E s := by
  intro xs
  induction xs with
  | nil => intro s h; exact h
  | cons x xs ih =>
    intro s h
    change Wp (f x >>= fun _ => xs.forM f) _ E s
    rw [wp_bind]
    exact wp_mono (step x xs s h) (fun _ t ht => ih t ht) (fun _ _ h => h)

theorem wp_forM_const {I : σ → Prop} {f : β → EStateM ε σ PUnit} {xs : List β}
    (step : ∀ x ∈ xs, ∀ t, I t → Wp (f x) (fun _ u => I u) E t) {s : σ} (h : I s) :
    Wp (xs.forM f) (fun _ t => I t) E s := by
  have hsub := wp_forM (I := fun ys t => (∀ y ∈ ys, y ∈ xs) ∧ I t) (f := f) (E := E) ?_ xs s
    ⟨fun _ hy => hy, h⟩
  · exact wp_mono hsub (fun _ _ ht => ht.2) fun _ _ he => he
  · rintro y ys t ⟨hys, ht⟩
    exact wp_mono (step y (hys y (List.mem_cons_self ..)) t ht)
      (fun _ _ hu => ⟨fun z hz => hys z (List.mem_cons_of_mem _ hz), hu⟩) fun _ _ he => he

section Reads

variable {s : σ} {E : ε → Prop}

theorem wp_forM_reads {P : β → Prop} {f : β → EStateM ε σ PUnit} {xs : List β}
    (step : ∀ x ∈ xs, Wp (f x) (fun _ t => t = s ∧ P x) (fun e t => t = s ∧ E e) s) :
    Wp (xs.forM f) (fun _ t => t = s ∧ ∀ x ∈ xs, P x) (fun e t => t = s ∧ E e) s := by
  induction xs with
  | nil => exact ⟨rfl, by simp⟩
  | cons x xs ih =>
    change Wp (f x >>= fun _ => xs.forM f) _ _ s
    rw [wp_bind]
    refine wp_mono (step x (List.mem_cons_self ..)) ?_ fun _ _ h => h
    rintro _ t ⟨rfl, hx⟩
    refine wp_mono (ih fun y hy => step y (List.mem_cons_of_mem _ hy)) ?_ fun _ _ h => h
    rintro _ u ⟨rfl, hxs⟩
    exact ⟨rfl, List.forall_mem_cons.mpr ⟨hx, hxs⟩⟩

theorem exists_of_forall₂ {R : β → γ → Prop} {xs : List β} {ys : List γ}
    (h : List.Forall₂ R xs ys) {y : γ} (hy : y ∈ ys) : ∃ x ∈ xs, R x y := by
  induction h with
  | nil => cases hy
  | cons hxy _ ih =>
    rcases List.mem_cons.mp hy with rfl | hy
    · exact ⟨_, List.mem_cons_self .., hxy⟩
    · obtain ⟨x, hx, hR⟩ := ih hy
      exact ⟨x, List.mem_cons_of_mem _ hx, hR⟩

theorem wp_mapM_reads {R : β → γ → Prop} {f : β → EStateM ε σ γ} {xs : List β}
    (step : ∀ x ∈ xs, Wp (f x) (fun y t => t = s ∧ R x y) (fun e t => t = s ∧ E e) s) :
    Wp (xs.mapM f) (fun ys t => t = s ∧ List.Forall₂ R xs ys) (fun e t => t = s ∧ E e) s := by
  induction xs with
  | nil => exact ⟨rfl, .nil⟩
  | cons x xs ih =>
    simp only [List.mapM_cons, wp_bind]
    refine wp_mono (step x (List.mem_cons_self ..)) ?_ fun _ _ h => h
    rintro y t ⟨rfl, hx⟩
    refine wp_mono (ih fun z hz => step z (List.mem_cons_of_mem _ hz)) ?_ fun _ _ h => h
    rintro ys u ⟨rfl, hxs⟩
    exact ⟨rfl, .cons hx hxs⟩

end Reads

end Loops

section Moves

/-- Every exit is related to the state from which the program ran. Instance
search follows the program, so that a frame is stated once a function. -/
class Moves (R : σ → σ → Prop) (m : EStateM ε σ α) : Prop where
  rel : ∀ s, R s (finalState m s)

/-- The two sides are the same by computation. -/
class inductive Same : α → α → Prop where
  | refl (a : α) : Same a a

attribute [instance] Same.refl

theorem Same.eq {a b : α} (h : Same a b) : a = b := by
  cases h
  rfl

variable {R : σ → σ → Prop}

theorem moves_modify {f : σ → σ} (h : ∀ s, R s (f s)) :
    Moves R (modify f : EStateM ε σ PUnit) := ⟨h⟩

instance moves_map {m : EStateM ε σ β} {f : β → α} [hm : Moves R m] : Moves R (f <$> m) := by
  refine ⟨fun s => ?_⟩
  have hs := hm.rel s
  change R s (finalState (EStateM.map f m) s)
  unfold finalState EStateM.map at *
  cases h : m s <;> rw [h] at hs <;> exact hs

instance moves_attempt {m : EStateM ε σ α} [hm : Moves R m] : Moves R (attempt m) := by
  refine ⟨fun s => ?_⟩
  have hs := hm.rel s
  unfold finalState attempt at *
  cases h : m s <;> rw [h] at hs <;> exact hs

instance moves_ite {c : Prop} [Decidable c] {m n : EStateM ε σ α} [hm : Moves R m]
    [hn : Moves R n] : Moves R (if c then m else n) := by
  split
  · exact hm
  · exact hn

/-- The two states look the same through `view`. -/
def Unchanged {β : Type} (view : σ → β) (s t : σ) : Prop := view t = view s

instance {β : Type} (view : σ → β) : IsPreorder σ (Unchanged view) where
  refl _ := rfl
  trans _ _ _ h h' := h'.trans h

instance moves_modify_unchanged {β : Type} {view : σ → β} {f : σ → σ}
    [h : Same (fun s => view (f s)) view] :
    Moves (Unchanged view) (modify f : EStateM ε σ PUnit) :=
  moves_modify fun s => congrFun h.eq s

theorem wp_of_moves (R : σ → σ → Prop) (m : EStateM ε σ α) [h : Moves R m] (s : σ) :
    Wp m (fun _ t => R s t) (fun _ t => R s t) s := by
  have hs := h.rel s
  unfold finalState at hs
  unfold Wp
  cases hm : m s <;> rw [hm] at hs <;> exact hs

theorem moves_mono {R' : σ → σ → Prop} (m : EStateM ε σ α) [hm : Moves R m]
    (h : ∀ s t, R s t → R' s t) : Moves R' m := ⟨fun s => h _ _ (hm.rel s)⟩

theorem moves_of_wp {m : EStateM ε σ α}
    (h : ∀ s, Wp m (fun _ t => R s t) (fun _ t => R s t) s) : Moves R m :=
  ⟨fun s => finalState_of_wp (h s)⟩

variable [IsPreorder σ R]

instance moves_pure (a : α) : Moves R (pure a : EStateM ε σ α) := ⟨fun s => refl_of R s⟩

instance moves_throw (e : ε) : Moves R (throw e : EStateM ε σ α) := ⟨fun s => refl_of R s⟩

instance moves_get : Moves R (get : EStateM ε σ σ) := ⟨fun s => refl_of R s⟩

theorem moves_seq {m : EStateM ε σ β} {f : β → EStateM ε σ α} (hm : Moves R m)
    (hf : ∀ b, Moves R (f b)) : Moves R (m >>= f) := by
  refine ⟨fun s => ?_⟩
  have hs := hm.rel s
  change R s (finalState (EStateM.bind m f) s)
  unfold finalState EStateM.bind at *
  cases h : m s with
  | ok b t =>
    rw [h] at hs
    exact trans_of R hs ((hf b).rel t)
  | error e t =>
    rw [h] at hs
    exact hs

instance moves_bind {m : EStateM ε σ β} {f : β → EStateM ε σ α} [hm : Moves R m]
    [hf : ∀ b, Moves R (f b)] : Moves R (m >>= f) := moves_seq hm hf

instance moves_forM {f : β → EStateM ε σ PUnit} [hf : ∀ x, Moves R (f x)] (xs : List β) :
    Moves R (xs.forM f) := by
  induction xs with
  | nil => exact moves_pure _
  | cons x xs ih => exact moves_seq (hf x) fun _ => ih

instance moves_mapM {f : β → EStateM ε σ α} [hf : ∀ x, Moves R (f x)] (xs : List β) :
    Moves R (xs.mapM f) := by
  induction xs with
  | nil => exact moves_pure _
  | cons x xs ih =>
    rw [List.mapM_cons]
    infer_instance

end Moves

end StateProgram
