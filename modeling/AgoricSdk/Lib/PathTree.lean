import Mathlib.Tactic

/-!
Trees of data addressed by paths, and the nodes that stand for them in a store.
A node stands at every path that has data or a descendant with data; one without
data of its own is a placeholder. Writing data adds the missing placeholders
above it, removing data prunes the placeholders that have become useless; both
walk from the parent to the root and stop at the first ancestor that needs no
change. The two invariants below say what is already right during such a walk.
-/

namespace PathTree

variable {σ ν : Type}

/-- The data at each path. -/
abbrev Tree (σ ν : Type) := List σ → Option ν

/-- A path is live when it or one of its descendants has data. -/
def Live (t : Tree σ ν) (p : List σ) : Prop := ∃ q, p <+: q ∧ (t q).isSome

inductive Node (ν : Type) where
  | data (value : ν)
  | placeholder

/-- The data of a node, if any. -/
def Node.value? : Node ν → Option ν
  | .data v => some v
  | .placeholder => none

/-- The nodes of a store, by path. -/
abbrev Nodes (σ ν : Type) := List σ → Option (Node ν)

/-- The data of the node at a path, if there is one. -/
def Nodes.value? (n : Nodes σ ν) (p : List σ) : Option ν := (n p).bind Node.value?

/-- The node at the path is the one that the tree asks for. -/
structure Exact (t : Tree σ ν) (n : Nodes σ ν) (p : List σ) : Prop where
  value : n.value? p = t p
  live : (n p).isSome ↔ Live t p

/-- The node at the path has the right data and is there when it is needed. -/
structure Covers (t : Tree σ ν) (n : Nodes σ ν) (p : List σ) : Prop where
  value : n.value? p = t p
  live : Live t p → (n p).isSome

/-- The nodes are those of the tree. -/
def Represents (t : Tree σ ν) (n : Nodes σ ν) : Prop := ∀ p, Exact t n p

theorem Exact.covers {t : Tree σ ν} {n : Nodes σ ν} {p : List σ} (h : Exact t n p) :
    Covers t n p := ⟨h.value, h.live.mpr⟩

theorem Covers.exact {t : Tree σ ν} {n : Nodes σ ν} {p : List σ} (h : Covers t n p)
    (hl : Live t p) : Exact t n p := ⟨h.value, ⟨fun _ => hl, h.live⟩⟩

theorem Live.of_extension {t : Tree σ ν} {p q : List σ} (h : p <+: q) (hq : Live t q) : Live t p := by
  obtain ⟨r, hr, hs⟩ := hq
  exact ⟨r, h.trans hr, hs⟩

theorem live_of_isSome {t : Tree σ ν} {p : List σ} (h : (t p).isSome) : Live t p :=
  ⟨p, List.prefix_rfl, h⟩

theorem live_iff {t : Tree σ ν} {p : List σ} :
    Live t p ↔ (t p).isSome ∨ ∃ s, Live t (p ++ [s]) := by
  constructor
  · rintro ⟨q, ⟨r, rfl⟩, hq⟩
    cases r with
    | nil =>
      rw [List.append_nil] at hq
      exact .inl hq
    | cons s r => exact .inr ⟨s, p ++ s :: r, ⟨r, by simp⟩, hq⟩
  · rintro (h | ⟨s, h⟩)
    · exact live_of_isSome h
    · exact h.of_extension (List.prefix_append _ _)

theorem represents_empty : Represents (fun _ => none : Tree σ ν) fun _ => none := fun p =>
  ⟨rfl, by simp [Live]⟩

theorem Represents.value? {t : Tree σ ν} {n : Nodes σ ν} (h : Represents t n) (p : List σ) :
    n.value? p = t p := (h p).value

theorem Represents.unique {t : Tree σ ν} {n n' : Nodes σ ν} (h : Represents t n)
    (h' : Represents t n') : n = n' := by
  funext p
  have hvalue : n.value? p = n'.value? p := (h.value? p).trans (h'.value? p).symm
  have hlive : (n p).isSome ↔ (n' p).isSome := (h p).live.trans (h' p).live.symm
  unfold Nodes.value? at hvalue
  cases hn : n p with
  | none =>
    rw [hn] at hlive
    cases hn' : n' p with
    | none => rfl
    | some node => simp [hn'] at hlive
  | some node =>
    rw [hn] at hlive hvalue
    cases hn' : n' p with
    | none => simp [hn'] at hlive
    | some node' =>
      rw [hn'] at hvalue
      cases node <;> cases node' <;> simp_all [Node.value?]

section Write

variable [DecidableEq σ]

/-- Replace the node at one path. -/
def Nodes.put (n : Nodes σ ν) (p : List σ) (node : Option (Node ν)) : Nodes σ ν :=
  Function.update n p node

@[simp] theorem Nodes.put_self (n : Nodes σ ν) (p : List σ) (node : Option (Node ν)) :
    n.put p node p = node := Function.update_self ..

theorem Nodes.put_of_ne {n : Nodes σ ν} {p q : List σ} {node : Option (Node ν)} (h : q ≠ p) :
    n.put p node q = n q := Function.update_of_ne h ..

/-- Set or remove the data at one path. -/
def write (t : Tree σ ν) (p : List σ) (value : Option ν) : Tree σ ν := Function.update t p value

@[simp] theorem write_self (t : Tree σ ν) (p : List σ) (value : Option ν) :
    write t p value p = value := Function.update_self ..

theorem write_of_ne {t : Tree σ ν} {p q : List σ} {value : Option ν} (h : q ≠ p) :
    write t p value q = t q := Function.update_of_ne h ..

theorem live_write_iff {t : Tree σ ν} {p q : List σ} {value : Option ν} (h : ¬ q <+: p) :
    Live (write t p value) q ↔ Live t q := by
  constructor
  · rintro ⟨r, hr, hs⟩
    rw [write_of_ne (by rintro rfl; exact h hr)] at hs
    exact ⟨r, hr, hs⟩
  · rintro ⟨r, hr, hs⟩
    refine ⟨r, hr, ?_⟩
    rw [write_of_ne (by rintro rfl; exact h hr)]
    exact hs

theorem live_write_some {t : Tree σ ν} {p q : List σ} {v : ν} (h : q <+: p) :
    Live (write t p (some v)) q := ⟨p, h, by simp⟩

omit [DecidableEq σ] in
/-- What a representation needs at a path depends on the data there and on
whether the path is live. -/
theorem Exact.congr {t t' : Tree σ ν} {n n' : Nodes σ ν} {p : List σ} (h : Exact t n p)
    (hn : n' p = n p) (ht : t' p = t p) (hl : Live t' p ↔ Live t p) : Exact t' n' p := by
  refine ⟨?_, ?_⟩
  · rw [Nodes.value?, hn, ht]
    exact h.value
  · rw [hn, hl]
    exact h.live

omit [DecidableEq σ] in
theorem Covers.congr {t : Tree σ ν} {n n' : Nodes σ ν} {p : List σ} (h : Covers t n p)
    (hn : n' p = n p) : Covers t n' p := by
  refine ⟨?_, ?_⟩
  · rw [Nodes.value?, hn]
    exact h.value
  · rw [hn]
    exact h.live

omit [DecidableEq σ] in
theorem take_ne_take {p : List σ} {i j : Nat} (hi : i < p.length) (hj : j < i) :
    p.take j ≠ p.take i := by
  intro h
  have := congrArg List.length h
  simp only [List.length_take] at this
  omega

/-- The walk that adds placeholders above `p`, with the ancestors of length less
than `i` still to be visited: these are as before the write, the others right. -/
structure Growing (t : Tree σ ν) (p : List σ) (v : ν) (i : Nat) (n : Nodes σ ν) : Prop where
  bound : i ≤ p.length
  todo : ∀ j < i, Exact t n (p.take j)
  done : ∀ q, (∀ j < i, q ≠ p.take j) → Exact (write t p (some v)) n q

theorem Growing.start {t : Tree σ ν} {n : Nodes σ ν} (h : Represents t n) (p : List σ) (v : ν) :
    Growing t p v p.length (n.put p (some (.data v))) where
  bound := Nat.le_refl _
  todo j hj := by
    have hne : p.take j ≠ p := by
      intro he
      have := congrArg List.length he
      simp only [List.length_take] at this
      omega
    exact (h _).congr (Nodes.put_of_ne hne) rfl Iff.rfl
  done q hq := by
    by_cases hqp : q = p
    · subst hqp
      exact ⟨by simp [Nodes.value?, Node.value?], by simp [live_write_some]⟩
    · refine (h q).congr (Nodes.put_of_ne hqp) (write_of_ne hqp) (live_write_iff fun hpre => ?_)
      obtain hlt | heq := Nat.lt_or_eq_of_le hpre.length_le
      · exact hq _ hlt (List.prefix_iff_eq_take.mp hpre)
      · exact hqp (hpre.eq_of_length heq)

theorem Growing.stop {t : Tree σ ν} {p : List σ} {v : ν} {i : Nat} {n : Nodes σ ν}
    (h : Growing t p v (i + 1) n) (hn : (n (p.take i)).isSome) :
    Represents (write t p (some v)) n := by
  intro q
  by_cases hq : ∃ j < i + 1, q = p.take j
  · obtain ⟨j, hj, rfl⟩ := hq
    have hex := h.todo j hj
    have hlive : Live t (p.take j) :=
      ((h.todo i (by omega)).live.mp hn).of_extension (List.take_prefix_take_left (by omega))
    have hlt : (p.take j).length < p.length := by
      have := h.bound
      simp only [List.length_take]
      omega
    have hne : p.take j ≠ p := fun he => by rw [he] at hlt; omega
    exact hex.congr rfl (write_of_ne hne)
      ⟨fun _ => hlive, fun _ => live_write_some (List.take_prefix _ _)⟩
  · exact h.done q fun j hj he => hq ⟨j, hj, he⟩

theorem Growing.step {t : Tree σ ν} {p : List σ} {v : ν} {i : Nat} {n : Nodes σ ν}
    (h : Growing t p v (i + 1) n) (hn : n (p.take i) = none) :
    Growing t p v i (n.put (p.take i) (some .placeholder)) where
  bound := by have := h.bound; omega
  todo j hj := by
    have hb := h.bound
    exact (h.todo j (by omega)).congr (Nodes.put_of_ne (take_ne_take (by omega) hj)) rfl Iff.rfl
  done q hq := by
    by_cases hqi : q = p.take i
    · subst hqi
      have hb := h.bound
      have hne : p.take i ≠ p := by
        intro he
        have := congrArg List.length he
        simp only [List.length_take] at this
        omega
      have hnone : t (p.take i) = none := by
        have := (h.todo i (by omega)).value
        rw [Nodes.value?, hn] at this
        exact this.symm
      refine ⟨?_, ?_⟩
      · rw [write_of_ne hne, hnone]
        simp [Nodes.value?, Node.value?]
      · simp [live_write_some (List.take_prefix i p)]
    · refine (h.done q fun j hj => ?_).congr (Nodes.put_of_ne hqi) rfl Iff.rfl
      obtain hlt | rfl := Nat.lt_or_eq_of_le (Nat.le_of_lt_succ hj)
      · exact hq j hlt
      · exact hqi

theorem Growing.finish {t : Tree σ ν} {p : List σ} {v : ν} {n : Nodes σ ν}
    (h : Growing t p v 0 n) : Represents (write t p (some v)) n := fun q =>
  h.done q fun _ hj => absurd hj (Nat.not_lt_zero _)

/-- The walk that prunes placeholders above `p`, with the ancestors of length less
than `i` still to be visited: these may be useless, the others are right. -/
structure Pruning (t : Tree σ ν) (p : List σ) (i : Nat) (n : Nodes σ ν) : Prop where
  todo : ∀ j < i, Covers t n (p.take j)
  done : ∀ q, (∀ j < i, q ≠ p.take j) → Exact t n q

omit [DecidableEq σ] in
/-- The walk may start over whenever the nodes are right. -/
theorem Represents.pruning {t : Tree σ ν} {n : Nodes σ ν} (h : Represents t n) (p : List σ)
    (i : Nat) : Pruning t p i n := ⟨fun _ _ => (h _).covers, fun q _ => h q⟩

theorem Pruning.start {t : Tree σ ν} {n : Nodes σ ν} {p : List σ} {node : Option (Node ν)}
    (hanc : ∀ q, q <+: p → q ≠ p → Covers t n q) (hrest : ∀ q, ¬ q <+: p → Exact t n q)
    (hnode : Exact t (n.put p node) p) : Pruning t p p.length (n.put p node) where
  todo j hj := by
    have hne : p.take j ≠ p := by
      intro he
      have := congrArg List.length he
      simp only [List.length_take] at this
      omega
    exact (hanc _ (List.take_prefix _ _) hne).congr (Nodes.put_of_ne hne)
  done q hq := by
    by_cases hqp : q = p
    · subst hqp
      exact hnode
    · refine (hrest q fun hpre => ?_).congr (Nodes.put_of_ne hqp) rfl Iff.rfl
      obtain hlt | heq := Nat.lt_or_eq_of_le hpre.length_le
      · exact hq _ hlt (List.prefix_iff_eq_take.mp hpre)
      · exact hqp (hpre.eq_of_length heq)

omit [DecidableEq σ] in
/-- A path without data of its own is live when it has children. -/
theorem live_iff_of_none {t : Tree σ ν} {n : Nodes σ ν} {p : List σ} (hp : t p = none)
    (hrest : ∀ q, ¬ q <+: p → Exact t n q) : Live t p ↔ ∃ s, (n (p ++ [s])).isSome := by
  have hchild : ∀ s, (n (p ++ [s])).isSome ↔ Live t (p ++ [s]) := fun s =>
    (hrest _ fun h => by
      have := h.length_le
      simp at this).live
  rw [live_iff, hp]
  simp only [hchild, Option.isSome_none, Bool.false_eq_true, false_or]

omit [DecidableEq σ] in
/-- The children of the ancestor that the walk stands at are right. -/
theorem Pruning.child_isSome_iff {t : Tree σ ν} {p : List σ} {i : Nat} {n : Nodes σ ν}
    (h : Pruning t p (i + 1) n) (s : σ) :
    (n (p.take i ++ [s])).isSome ↔ Live t (p.take i ++ [s]) := by
  refine (h.done _ fun j hj he => ?_).live
  have := congrArg List.length he
  simp only [List.length_append, List.length_take, List.length_singleton] at this
  omega

omit [DecidableEq σ] in
/-- The ancestor is live when it has data or a child. -/
theorem Pruning.live_iff {t : Tree σ ν} {p : List σ} {i : Nat} {n : Nodes σ ν}
    (h : Pruning t p (i + 1) n) :
    Live t (p.take i) ↔
      (n.value? (p.take i)).isSome ∨ ∃ s, (n (p.take i ++ [s])).isSome := by
  rw [PathTree.live_iff, (h.todo i (by omega)).value]
  simp only [h.child_isSome_iff]

theorem Pruning.stop {t : Tree σ ν} {p : List σ} {i : Nat} {n : Nodes σ ν}
    (h : Pruning t p (i + 1) n) (hl : Live t (p.take i)) : Represents t n := by
  intro q
  by_cases hq : ∃ j < i + 1, q = p.take j
  · obtain ⟨j, hj, rfl⟩ := hq
    exact (h.todo j hj).exact (hl.of_extension (List.take_prefix_take_left (by omega)))
  · exact h.done q fun j hj he => hq ⟨j, hj, he⟩

theorem Pruning.step {t : Tree σ ν} {p : List σ} {i : Nat} {n : Nodes σ ν}
    (h : Pruning t p (i + 1) n) {node : Option (Node ν)}
    (hnode : Exact t (n.put (p.take i) node) (p.take i)) :
    Pruning t p i (n.put (p.take i) node) where
  todo j hj := by
    by_cases he : p.take j = p.take i
    · rw [he]
      exact hnode.covers
    · exact (h.todo j (by omega)).congr (Nodes.put_of_ne he)
  done q hq := by
    by_cases hqi : q = p.take i
    · subst hqi
      exact hnode
    · refine (h.done q fun j hj => ?_).congr (Nodes.put_of_ne hqi) rfl Iff.rfl
      obtain hlt | rfl := Nat.lt_or_eq_of_le (Nat.le_of_lt_succ hj)
      · exact hq j hlt
      · exact hqi

theorem Pruning.exact_none {t : Tree σ ν} {p : List σ} {i : Nat} {n : Nodes σ ν}
    (hl : ¬ Live t (p.take i)) : Exact t (n.put (p.take i) none) (p.take i) := by
  have hnone : t (p.take i) = none := by
    by_contra hs
    exact hl (live_of_isSome (Option.isSome_iff_ne_none.mpr hs))
  exact ⟨by simp [Nodes.value?, hnone], by simp [hl]⟩

omit [DecidableEq σ] in
theorem Pruning.finish {t : Tree σ ν} {p : List σ} {n : Nodes σ ν}
    (h : Pruning t p 0 n) : Represents t n := fun q =>
  h.done q fun _ hj => absurd hj (Nat.not_lt_zero _)

/-- Removing the data at a path leaves its strict ancestors covered and the paths
that are not its prefixes right. -/
theorem Represents.covers_write {t : Tree σ ν} {n : Nodes σ ν} (h : Represents t n)
    {p q : List σ} (hne : q ≠ p) : Covers (write t p none) n q := by
  refine ⟨by rw [write_of_ne hne]; exact h.value? q, ?_⟩
  rintro ⟨r, hr, hs⟩
  refine (h q).live.mpr ⟨r, hr, ?_⟩
  by_cases hrp : r = p
  · subst hrp
    simp at hs
  · rwa [write_of_ne hrp] at hs

theorem Represents.exact_write {t : Tree σ ν} {n : Nodes σ ν} (h : Represents t n)
    {p q : List σ} (hq : ¬ q <+: p) (value : Option ν) : Exact (write t p value) n q :=
  (h q).congr rfl (write_of_ne fun he => hq (he ▸ List.prefix_rfl)) (live_write_iff hq)

/-- Remove the data at a path and below it. -/
def removeSubtree (t : Tree σ ν) (p : List σ) : Tree σ ν := fun q =>
  if p <+: q then none else t q

/-- Remove the nodes strictly below a path. -/
def Nodes.removeBelow (n : Nodes σ ν) (p : List σ) : Nodes σ ν := fun q =>
  if p <+: q ∧ q ≠ p then none else n q

theorem not_live_removeSubtree {t : Tree σ ν} {p q : List σ} (h : p <+: q) :
    ¬ Live (removeSubtree t p) q := by
  rintro ⟨r, hr, hs⟩
  rw [removeSubtree, if_pos (h.trans hr)] at hs
  cases hs

theorem Represents.covers_removeSubtree {t : Tree σ ν} {n : Nodes σ ν} (h : Represents t n)
    {p q : List σ} (hpre : q <+: p) (hne : q ≠ p) :
    Covers (removeSubtree t p) (n.removeBelow p) q := by
  have hnot : ¬ p <+: q := fun hp =>
    hne (hpre.eq_of_length (Nat.le_antisymm hpre.length_le hp.length_le))
  have hn : n.removeBelow p q = n q := if_neg fun hc => hnot hc.1
  have ht : removeSubtree t p q = t q := if_neg hnot
  refine ⟨by rw [Nodes.value?, hn, ht]; exact h.value? q, ?_⟩
  rintro ⟨r, hr, hs⟩
  rw [hn]
  refine (h q).live.mpr ⟨r, hr, ?_⟩
  by_cases hrp : p <+: r
  · rw [removeSubtree, if_pos hrp] at hs
    cases hs
  · rwa [removeSubtree, if_neg hrp] at hs

theorem Represents.exact_removeSubtree {t : Tree σ ν} {n : Nodes σ ν} (h : Represents t n)
    {p q : List σ} (hq : ¬ q <+: p) : Exact (removeSubtree t p) (n.removeBelow p) q := by
  by_cases hp : p <+: q
  · have hne : q ≠ p := fun he => hq (he ▸ List.prefix_rfl)
    refine ⟨?_, ?_⟩
    · simp [Nodes.value?, Nodes.removeBelow, removeSubtree, hp, hne]
    · simp [Nodes.removeBelow, hp, hne, not_live_removeSubtree hp]
  · refine (h q).congr (if_neg fun hc => hp hc.1) (if_neg hp) ?_
    -- No path lies below both, since neither lies below the other.
    have hboth : ∀ r, q <+: r → ¬ p <+: r := fun r hr hpr =>
      (List.prefix_or_prefix_of_prefix hpr hr).elim hp hq
    constructor
    · rintro ⟨r, hr, hs⟩
      rw [removeSubtree, if_neg (hboth r hr)] at hs
      exact ⟨r, hr, hs⟩
    · rintro ⟨r, hr, hs⟩
      refine ⟨r, hr, ?_⟩
      rwa [removeSubtree, if_neg (hboth r hr)]

end Write

/-! ## Listings -/

section Listing

/-- The entries are the data of the tree, each path once. -/
structure Lists (t : Tree σ ν) (entries : List (List σ × ν)) : Prop where
  nodup : (entries.map Prod.fst).Nodup
  mem_iff : ∀ p v, (p, v) ∈ entries ↔ t p = some v

theorem Lists.notMem {t : Tree σ ν} {entries : List (List σ × ν)} (h : Lists t entries)
    {p : List σ} (hp : t p = none) : p ∉ entries.map Prod.fst := by
  intro hm
  obtain ⟨e, he, rfl⟩ := List.mem_map.mp hm
  have := (h.mem_iff e.1 e.2).mp he
  rw [hp] at this
  cases this

variable [DecidableEq σ]

theorem foldl_write_of_notMem {entries : List (List σ × ν)} {p : List σ}
    (hp : p ∉ entries.map Prod.fst) (t : Tree σ ν) :
    entries.foldl (fun t e => write t e.1 (some e.2)) t p = t p := by
  induction entries generalizing t with
  | nil => rfl
  | cons e entries ih =>
    obtain ⟨hne, hp⟩ := List.ne_and_not_mem_of_not_mem_cons hp
    rw [List.foldl_cons, ih hp, write_of_ne hne]

theorem foldl_write_of_mem {entries : List (List σ × ν)} (hnodup : (entries.map Prod.fst).Nodup)
    {p : List σ} {v : ν} (hp : (p, v) ∈ entries) (t : Tree σ ν) :
    entries.foldl (fun t e => write t e.1 (some e.2)) t p = some v := by
  induction entries generalizing t with
  | nil => cases hp
  | cons e entries ih =>
    obtain ⟨hhead, htail⟩ := List.nodup_cons.mp hnodup
    rw [List.foldl_cons]
    obtain rfl | hp := List.mem_cons.mp hp
    · rw [foldl_write_of_notMem hhead, write_self]
    · exact ih htail hp _

theorem Lists.foldl_write {t : Tree σ ν} {entries : List (List σ × ν)} (h : Lists t entries) :
    entries.foldl (fun t e => write t e.1 (some e.2)) (fun _ => none) = t := by
  funext p
  cases ht : t p with
  | none => exact foldl_write_of_notMem (h.notMem ht) _
  | some v => exact foldl_write_of_mem h.nodup ((h.mem_iff p v).mpr ht) _

/-- The data strictly below a path, each under the rest of its path. -/
def below (t : Tree σ ν) (p : List σ) : Tree σ ν := fun q =>
  if q = [] then none else t (p ++ q)

/-- Writing back what was strictly below a path, after everything from the path
on was removed, restores all but the data of the path itself. -/
theorem Lists.foldl_write_below {t : Tree σ ν} {p : List σ} {entries : List (List σ × ν)}
    (h : Lists (below t p) entries) :
    (entries.map fun e => (p ++ e.1, e.2)).foldl (fun t e => write t e.1 (some e.2))
      (removeSubtree t p) = write t p none := by
  have hfst : (entries.map fun e => (p ++ e.1, e.2)).map Prod.fst =
      (entries.map Prod.fst).map (p ++ ·) := by
    simp [List.map_map, Function.comp_def]
  have hnodup : ((entries.map fun e => (p ++ e.1, e.2)).map Prod.fst).Nodup := by
    rw [hfst]
    exact h.nodup.map (List.append_right_injective p)
  have hkept : ∀ q, q ∉ (entries.map fun e => (p ++ e.1, e.2)).map Prod.fst →
      removeSubtree t p q = write t p none q →
      (entries.map fun e => (p ++ e.1, e.2)).foldl (fun t e => write t e.1 (some e.2))
        (removeSubtree t p) q = write t p none q := by
    intro q hq heq
    rw [foldl_write_of_notMem hq, heq]
  funext q
  by_cases hpq : p <+: q
  · obtain ⟨r, rfl⟩ := hpq
    have hnone : removeSubtree t p (p ++ r) = none := if_pos (List.prefix_append _ _)
    have hmem : (p ++ r) ∈ (entries.map fun e => (p ++ e.1, e.2)).map Prod.fst ↔
        r ∈ entries.map Prod.fst := by
      rw [hfst, List.mem_map_of_injective (List.append_right_injective p)]
    cases hr : below t p r with
    | none =>
      apply hkept _ fun hm => h.notMem hr (hmem.mp hm)
      rw [hnone]
      unfold below at hr
      split at hr
      next hnil => simp [hnil]
      next hne =>
        rw [write_of_ne (by simpa using hne)]
        exact hr.symm
    | some v =>
      have hin : (p ++ r, v) ∈ entries.map fun e => (p ++ e.1, e.2) :=
        List.mem_map.mpr ⟨(r, v), (h.mem_iff r v).mpr hr, rfl⟩
      rw [foldl_write_of_mem hnodup hin]
      unfold below at hr
      split at hr
      next => cases hr
      next hne =>
        rw [write_of_ne (by simpa using hne)]
        exact hr.symm
  · refine hkept q (fun hm => ?_) ?_
    · rw [hfst] at hm
      obtain ⟨r, -, rfl⟩ := List.mem_map.mp hm
      exact hpq (List.prefix_append _ _)
    · have hne : q ≠ p := by
        rintro rfl
        exact hpq List.prefix_rfl
      rw [write_of_ne hne]
      exact if_neg hpq

end Listing

end PathTree
