import AgoricSdk.Lib.Record
import Mathlib.Data.List.Perm.Basic
import Mathlib.Data.List.Forall2
import Mathlib.Data.Option.Basic
import Mathlib.Tactic

/-!
Folds of a partial operation whose steps commute. States are compared up to a
relation, for an operation may give different representations of one value in
different orders. A fold over a list then fails or succeeds together with the fold
over any permutation of it, and the results are related.
-/

namespace CommutingFold

variable {σ τ α β γ δ : Type}

/-! ## Outcomes -/

/-- Two computations fail together, or end in related values. -/
abbrev SameOutcome (r : σ → τ → Prop) : Option σ → Option τ → Prop := Option.Rel r

theorem SameOutcome.isSome_iff {r : σ → τ → Prop} {x : Option σ} {y : Option τ}
    (h : SameOutcome r x y) : x.isSome ↔ y.isSome := by
  cases h <;> simp

theorem SameOutcome.exists_of_some {r : σ → τ → Prop} {a : σ} {y : Option τ}
    (h : SameOutcome r (some a) y) : ∃ b, y = some b ∧ r a b := by
  cases h with
  | some hab => exact ⟨_, rfl, hab⟩

theorem SameOutcome.eq_none {r : σ → τ → Prop} {y : Option τ}
    (h : SameOutcome r (none : Option σ) y) : y = none := by
  cases h with
  | none => rfl

theorem SameOutcome.bind {r : σ → τ → Prop} {q : α → β → Prop} {x : Option σ} {y : Option τ}
    {f : σ → Option α} {g : τ → Option β} (h : SameOutcome r x y)
    (hfg : ∀ a b, r a b → SameOutcome q (f a) (g b)) : SameOutcome q (x >>= f) (y >>= g) := by
  cases h with
  | some hab => exact hfg _ _ hab
  | none => exact .none

theorem SameOutcome.trans {r : σ → σ → Prop} (hr : ∀ a b c, r a b → r b c → r a c)
    {x y z : Option σ} (h : SameOutcome r x y) (h' : SameOutcome r y z) : SameOutcome r x z := by
  cases h with
  | some hab =>
    cases h' with
    | some hbc => exact .some (hr _ _ _ hab hbc)
  | none => exact h'

theorem SameOutcome.refl {r : σ → σ → Prop} (hr : ∀ a, r a a) (x : Option σ) :
    SameOutcome r x x := by
  cases x with
  | some a => exact .some (hr a)
  | none => exact .none

theorem SameOutcome.symm {r : σ → σ → Prop} (hr : ∀ a b, r a b → r b a) {x y : Option σ}
    (h : SameOutcome r x y) : SameOutcome r y x := by
  cases h with
  | some hab => exact .some (hr _ _ hab)
  | none => exact .none

theorem SameOutcome.equivalence {r : σ → σ → Prop} (hr : Equivalence r) :
    Equivalence (SameOutcome r) where
  refl x := .refl hr.refl x
  symm h := h.symm fun _ _ => hr.symm
  trans h h' := h.trans (r := r) (fun _ _ _ => hr.trans) h'

theorem SameOutcome.of_forall {r : σ → τ → Prop} {x : Option σ} {y : Option τ}
    (h : ∀ a, x = some a → ∃ b, y = some b ∧ r a b) (h' : ∀ b, y = some b → ∃ a, x = some a) :
    SameOutcome r x y := by
  cases hx : x with
  | some a =>
    obtain ⟨b, hy, hab⟩ := h a hx
    rw [hy]
    exact .some hab
  | none =>
    cases hy : y with
    | none => exact .none
    | some b =>
      obtain ⟨a, ha⟩ := h' b hy
      rw [hx] at ha
      cases ha

/-! ## Lists up to order -/

/-- The lists have the same elements, up to the relation, in some order. -/
def PermUpTo (r : α → β → Prop) (xs : List α) (ys : List β) : Prop :=
  ∃ zs, xs.Perm zs ∧ List.Forall₂ r zs ys

theorem PermUpTo.of_perm {r : α → α → Prop} (hr : ∀ a, r a a) {xs ys : List α}
    (h : xs.Perm ys) : PermUpTo r xs ys := by
  exact ⟨ys, h, List.forall₂_same.mpr fun a _ => hr a⟩

theorem PermUpTo.append {r : α → β → Prop} {xs xs' : List α} {ys ys' : List β}
    (h : PermUpTo r xs ys) (h' : PermUpTo r xs' ys') : PermUpTo r (xs ++ xs') (ys ++ ys') := by
  obtain ⟨zs, hperm, hrel⟩ := h
  obtain ⟨zs', hperm', hrel'⟩ := h'
  exact ⟨zs ++ zs', hperm.append hperm', List.rel_append hrel hrel'⟩

theorem PermUpTo.flatMap {q : γ → δ → Prop} {r : α → β → Prop} {xs : List γ} {ys : List δ}
    {f : γ → List α} {g : δ → List β} (h : PermUpTo q xs ys)
    (hfg : ∀ x y, q x y → PermUpTo r (f x) (g y)) : PermUpTo r (xs.flatMap f) (ys.flatMap g) := by
  obtain ⟨zs, hperm, hrel⟩ := h
  have hrest : PermUpTo r (zs.flatMap f) (ys.flatMap g) := by
    clear hperm
    induction hrel with
    | nil => exact ⟨[], .nil, .nil⟩
    | cons hxy _ ih =>
      rw [List.flatMap_cons, List.flatMap_cons]
      exact (hfg _ _ hxy).append ih
  obtain ⟨ws, hws, hrel'⟩ := hrest
  exact ⟨ws, (hperm.flatMap_right f).trans hws, hrel'⟩

section Records

variable {κ : Type} [DecidableEq κ]

theorem keys_perm {r : Record κ α} {r' : Record κ β}
    (h : ∀ k, (r.get k).isSome ↔ (r'.get k).isSome) : r.keys.Perm r'.keys := by
  refine (List.perm_ext_iff_of_nodup r.nodup r'.nodup).mpr fun k => ?_
  have hk := h k
  rw [Option.isSome_iff_exists, Option.isSome_iff_exists] at hk
  exact Record.mem_keys_iff.trans (hk.trans Record.mem_keys_iff.symm)

theorem values_eq_filterMap (r : Record κ α) : r.values = r.keys.filterMap r.get := by
  have hmap : ∀ es : List (κ × α), (∀ e ∈ es, r.get e.1 = some e.2) →
      (es.map (·.1)).filterMap r.get = es.map (·.2) := by
    intro es hes
    induction es with
    | nil => rfl
    | cons e es ih =>
      rw [List.map_cons, List.map_cons, List.filterMap_cons, hes e (List.mem_cons_self ..),
        ih fun e' he' => hes e' (List.mem_cons_of_mem _ he')]
  exact (hmap r.entries fun e he => Record.get_eq_some_iff.mpr he).symm

omit [DecidableEq κ] in
theorem filterMap_forall₂ {r : α → β → Prop} {f : κ → Option α} {g : κ → Option β}
    (h : ∀ k, SameOutcome r (f k) (g k)) (ks : List κ) :
    List.Forall₂ r (ks.filterMap f) (ks.filterMap g) := by
  induction ks with
  | nil => exact .nil
  | cons k ks ih =>
    rw [List.filterMap_cons, List.filterMap_cons]
    have hk := h k
    cases hf : f k with
    | none =>
      rw [hf] at hk
      rw [hk.eq_none]
      exact ih
    | some a =>
      rw [hf] at hk
      obtain ⟨b, hg, hab⟩ := hk.exists_of_some
      rw [hg]
      exact .cons hab ih

theorem permUpTo_values {q : α → β → Prop} {r : Record κ α} {r' : Record κ β}
    (h : ∀ k, SameOutcome q (r.get k) (r'.get k)) : PermUpTo q r.values r'.values := by
  have hkeys : r.keys.Perm r'.keys := keys_perm fun k => (h k).isSome_iff
  refine ⟨r'.keys.filterMap r.get, ?_, ?_⟩
  · rw [values_eq_filterMap]
    exact hkeys.filterMap r.get
  · rw [values_eq_filterMap r']
    exact filterMap_forall₂ h _

end Records

/-! ## Folds -/

/-- The steps of a partial operation respect the relation on states, and on the
elements, and commute up to it. -/
structure Commuting (r : σ → σ → Prop) (q : α → α → Prop) (op : σ → α → Option σ) : Prop where
  refl : ∀ s, r s s
  trans : ∀ s t u, r s t → r t u → r s u
  refl_elem : ∀ a, q a a
  congr : ∀ s s' a a', r s s' → q a a' → SameOutcome r (op s a) (op s' a')
  comm : ∀ s a b, SameOutcome r (op s a >>= fun t => op t b) (op s b >>= fun t => op t a)

namespace Commuting

theorem of_symm {r : σ → σ → Prop} {q : α → α → Prop} {op : σ → α → Option σ}
    (hr : Equivalence r) (hq : ∀ a, q a a) (hsymm : ∀ a b, q a b → q b a)
    (hcongr : ∀ s s' a a' t, r s s' → q a a' → op s a = some t → ∃ t', op s' a' = some t' ∧ r t t')
    (hcomm : ∀ s a b t u, op s a = some t → op t b = some u →
      ∃ t' u', op s b = some t' ∧ op t' a = some u' ∧ r u u') : Commuting r q op where
  refl := hr.refl
  trans _ _ _ := hr.trans
  refl_elem := hq
  congr s s' a a' hs ha := by
    refine .of_forall (fun t ht => hcongr s s' a a' t hs ha ht) fun t' ht' => ?_
    obtain ⟨t, ht, -⟩ := hcongr s' s a' a t' (hr.symm hs) (hsymm _ _ ha) ht'
    exact ⟨t, ht⟩
  comm s a b := by
    refine .of_forall (fun u hu => ?_) fun u hu => ?_
    · obtain ⟨t, ht, hu⟩ := Option.bind_eq_some_iff.mp hu
      obtain ⟨t', u', ht', hu', huu⟩ := hcomm s a b t u ht hu
      exact ⟨u', Option.bind_eq_some_iff.mpr ⟨t', ht', hu'⟩, huu⟩
    · obtain ⟨t, ht, hu⟩ := Option.bind_eq_some_iff.mp hu
      obtain ⟨t', u', ht', hu', -⟩ := hcomm s b a t u ht hu
      exact ⟨u', Option.bind_eq_some_iff.mpr ⟨t', ht', hu'⟩⟩

variable {r : σ → σ → Prop} {q : α → α → Prop} {op : σ → α → Option σ}

theorem swap (h : Commuting r q op) {s t u : σ} {a b : α} (ht : op s a = some t)
    (hu : op t b = some u) : ∃ t' u', op s b = some t' ∧ op t' a = some u' ∧ r u u' := by
  have hcomm := h.comm s a b
  rw [ht, Option.bind_eq_bind, Option.bind_some, hu] at hcomm
  obtain ⟨u', hu', huu⟩ := hcomm.exists_of_some
  obtain ⟨t', ht', hu'⟩ := Option.bind_eq_some_iff.mp hu'
  exact ⟨t', u', ht', hu', huu⟩

theorem foldlM_forall₂ (h : Commuting r q op) {xs ys : List α} (hxs : List.Forall₂ q xs ys)
    {s s' : σ} (hs : r s s') : SameOutcome r (xs.foldlM op s) (ys.foldlM op s') := by
  induction hxs generalizing s s' with
  | nil => exact .some hs
  | cons hxy _ ih =>
    rw [List.foldlM_cons, List.foldlM_cons]
    exact (h.congr _ _ _ _ hs hxy).bind fun t t' ht => ih ht

theorem foldlM_congr (h : Commuting r q op) (xs : List α) {s s' : σ} (hs : r s s') :
    SameOutcome r (xs.foldlM op s) (xs.foldlM op s') :=
  h.foldlM_forall₂ (List.forall₂_same.mpr fun a _ => h.refl_elem a) hs

theorem foldlM_perm (h : Commuting r q op) {xs ys : List α} (hxs : xs.Perm ys) (s : σ) :
    SameOutcome r (xs.foldlM op s) (ys.foldlM op s) := by
  induction hxs generalizing s with
  | nil => exact .some (h.refl s)
  | cons x _ ih =>
    rw [List.foldlM_cons, List.foldlM_cons]
    cases op s x with
    | none => exact .none
    | some t => exact ih t
  | swap x y xs =>
    simp only [List.foldlM_cons]
    rw [← bind_assoc, ← bind_assoc]
    exact (h.comm s y x).bind fun t t' ht => h.foldlM_congr xs ht
  | trans _ _ ih ih' => exact (ih s).trans h.trans (ih' s)

theorem foldlM_permUpTo (h : Commuting r q op) {xs ys : List α} (hxs : PermUpTo q xs ys)
    {s s' : σ} (hs : r s s') : SameOutcome r (xs.foldlM op s) (ys.foldlM op s') := by
  obtain ⟨zs, hperm, hrel⟩ := hxs
  exact (h.foldlM_perm hperm s).trans h.trans (h.foldlM_forall₂ hrel hs)

end Commuting

end CommutingFold
