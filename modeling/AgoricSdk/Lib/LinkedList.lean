import Mathlib.Tactic

/-!
Doubly linked lists kept in a store of nodes. Nodes are named by positive
numbers; each holds the names of its two neighbours, where zero stands for no
neighbour. The list threads a sequence of names when the store has exactly these
nodes and each points to the ones before and after it.
-/

namespace LinkedList

/-- The first name of a sequence, or zero. -/
def firstOf (l : List Nat) : Nat := l.head?.getD 0

/-- The last name of a sequence, or zero. -/
def lastOf (l : List Nat) : Nat := l.getLast?.getD 0

@[simp] theorem firstOf_nil : firstOf [] = 0 := rfl

@[simp] theorem firstOf_cons (id : Nat) (l : List Nat) : firstOf (id :: l) = id := rfl

@[simp] theorem lastOf_nil : lastOf [] = 0 := rfl

@[simp] theorem lastOf_append_singleton (l : List Nat) (id : Nat) : lastOf (l ++ [id]) = id := by
  simp [lastOf]

@[simp] theorem lastOf_append_cons (l m : List Nat) (id : Nat) :
    lastOf (l ++ id :: m) = lastOf (id :: m) := by
  simp [lastOf, List.getLast?_eq_getLast_of_ne_nil]

@[simp] theorem lastOf_cons_cons (a b : Nat) (l : List Nat) :
    lastOf (a :: b :: l) = lastOf (b :: l) := lastOf_append_cons [a] l b

theorem firstOf_append {l : List Nat} (h : l ≠ []) (m : List Nat) :
    firstOf (l ++ m) = firstOf l := by
  cases l with
  | nil => exact absurd rfl h
  | cons id l => rfl

theorem lastOf_append {m : List Nat} (h : m ≠ []) (l : List Nat) :
    lastOf (l ++ m) = lastOf m := by
  cases m with
  | nil => exact absurd rfl h
  | cons id m => exact lastOf_append_cons l m id

/-- The neighbours of each node, the one before and the one after. -/
abbrev Links := Nat → Option (Nat × Nat)

structure Threads (links : Links) (l : List Nat) : Prop where
  nodup : l.Nodup
  pos : 0 ∉ l
  absent : ∀ id, id ∉ l → links id = none
  link : ∀ xs id ys, l = xs ++ id :: ys → links id = some (lastOf xs, firstOf ys)

variable {links links' : Links} {l : List Nat}

theorem Threads.isSome_iff (h : Threads links l) {id : Nat} : (links id).isSome ↔ id ∈ l := by
  constructor
  · intro hs
    by_contra hn
    rw [h.absent id hn] at hs
    cases hs
  · intro hm
    obtain ⟨xs, ys, rfl⟩ := List.append_of_mem hm
    rw [h.link xs id ys rfl]
    rfl

theorem threads_nil : Threads (fun _ => none) [] :=
  ⟨List.nodup_nil, by simp, fun _ _ => rfl, fun xs id ys h => by simp at h⟩

theorem firstOf_ne_zero (h : 0 ∉ l) (hne : l ≠ []) : firstOf l ≠ 0 := by
  cases l with
  | nil => exact absurd rfl hne
  | cons id l =>
    intro hz
    exact h (by rw [← hz, firstOf_cons]; exact List.mem_cons_self ..)

theorem lastOf_eq_zero_iff (h : 0 ∉ l) : lastOf l = 0 ↔ l = [] := by
  constructor
  · intro hz
    by_contra hne
    obtain ⟨xs, id, rfl⟩ : ∃ xs id, l = xs ++ [id] :=
      ⟨l.dropLast, l.getLast hne, (List.dropLast_append_getLast hne).symm⟩
    rw [lastOf_append_singleton] at hz
    exact h (by simp [hz])
  · rintro rfl
    rfl

theorem append_cons_cases {xs ys as bs : List Nat} {id : Nat} (h : xs ++ ys = as ++ id :: bs) :
    (∃ cs, xs = as ++ id :: cs ∧ bs = cs ++ ys) ∨ ∃ cs, as = xs ++ cs ∧ ys = cs ++ id :: bs := by
  obtain ⟨cs, hxs, hys⟩ | ⟨cs, has, hys⟩ := List.append_eq_append_iff.mp h
  · exact .inr ⟨cs, hxs, hys⟩
  · cases cs with
    | nil => exact .inr ⟨[], by simpa using has.symm, hys.symm⟩
    | cons c cs =>
      obtain ⟨rfl, rfl⟩ := List.cons.inj hys
      exact .inl ⟨cs, has, rfl⟩

theorem Threads.append (h : Threads links l) {new : Nat} (hnew : new ∉ l) (hpos : new ≠ 0)
    (hlink : links' new = some (lastOf l, 0))
    (hlast : ∀ xs last, l = xs ++ [last] → links' last = some (lastOf xs, new))
    (hother : ∀ id, id ≠ new → id = 0 ∨ id ≠ lastOf l → links' id = links id) :
    Threads links' (l ++ [new]) where
  nodup := by
    rw [List.nodup_append]
    exact ⟨h.nodup, List.nodup_singleton _, by rintro a ha b hb rfl; simp at hb; exact hnew (hb ▸ ha)⟩
  pos := by
    rw [List.mem_append, List.mem_singleton]
    rintro (hm | hz)
    · exact h.pos hm
    · exact hpos hz.symm
  absent id hid := by
    have hid' : id ∉ l ∧ id ≠ new := by simpa using hid
    rw [hother id hid'.2 ?_, h.absent id hid'.1]
    by_cases hz : id = 0
    · exact .inl hz
    · right
      rintro rfl
      cases l using List.reverseRecOn with
      | nil => exact hz rfl
      | append_singleton xs last =>
        rw [lastOf_append_singleton] at hid'
        exact hid'.1 (by simp)
  link xs id ys hsplit := by
    obtain ⟨cs, hxs, rfl⟩ | ⟨cs, rfl, hys⟩ := append_cons_cases hsplit
    · have hmem : id ∈ l := by rw [hxs]; simp
      have hne : id ≠ new := fun he => hnew (he ▸ hmem)
      cases cs with
      | nil =>
        rw [hlast xs id hxs]
        rfl
      | cons c cs =>
        have hnotlast : id ≠ lastOf l := by
          intro he
          have hnd := h.nodup
          rw [hxs, List.nodup_append] at hnd
          have hid : id ∉ c :: cs := (List.nodup_cons.mp hnd.2.1).1
          rw [hxs, lastOf_append_cons] at he
          have hlast : lastOf (id :: c :: cs) ∈ c :: cs := by
            have heq : lastOf (id :: c :: cs) = (c :: cs).getLast (by simp) := by
              simp [lastOf, List.getLast?_eq_getLast_of_ne_nil]
            rw [heq]
            exact List.getLast_mem _
          exact hid (he ▸ hlast)
        rw [hother id hne (.inr hnotlast), h.link xs id (c :: cs) hxs]
        rfl
    · have hcs : cs = [] ∧ new = id ∧ ys = [] := by
        cases cs with
        | nil => simpa using hys
        | cons c cs => simp at hys
      obtain ⟨rfl, rfl, rfl⟩ := hcs
      rw [hlink, List.append_nil]
      rfl

theorem lastOf_mem (hne : l ≠ []) : lastOf l ∈ l := by
  have h : lastOf l = l.getLast hne := by simp [lastOf, List.getLast?_eq_getLast_of_ne_nil hne]
  rw [h]
  exact List.getLast_mem hne

theorem firstOf_mem (hne : l ≠ []) : firstOf l ∈ l := by
  cases l with
  | nil => exact absurd rfl hne
  | cons id l => exact List.mem_cons_self ..

theorem Threads.unlink {xs ys : List Nat} {victim : Nat}
    (h : Threads links (xs ++ victim :: ys)) (hvictim : links' victim = none)
    (hprev : ∀ as p, xs = as ++ [p] → links' p = some (lastOf as, firstOf ys))
    (hnext : ∀ n bs, ys = n :: bs → links' n = some (lastOf xs, firstOf bs))
    (hother : ∀ id, id ≠ victim → (id = 0 ∨ id ≠ lastOf xs ∧ id ≠ firstOf ys) →
      links' id = links id) : Threads links' (xs ++ ys) where
  nodup := by
    have hnd := h.nodup
    rw [List.nodup_middle, List.nodup_cons] at hnd
    exact hnd.2
  pos hm := h.pos (by
    rw [List.mem_append] at hm
    rw [List.mem_append, List.mem_cons]
    exact hm.imp id .inr)
  absent id hid := by
    by_cases hv : id = victim
    · rw [hv, hvictim]
    · have hid' : id ∉ xs ∧ id ∉ ys := by simpa using hid
      rw [hother id hv ?_, h.absent id (by simp [hid'.1, hid'.2, hv])]
      by_cases hz : id = 0
      · exact .inl hz
      · right
        constructor
        · rintro rfl
          by_cases hxs : xs = []
          · exact hz (by rw [hxs, lastOf_nil])
          · exact hid'.1 (lastOf_mem hxs)
        · rintro rfl
          by_cases hys : ys = []
          · exact hz (by rw [hys, firstOf_nil])
          · exact hid'.2 (firstOf_mem hys)
  link as id bs hsplit := by
    have hnd := h.nodup
    obtain ⟨cs, rfl, rfl⟩ | ⟨cs, rfl, rfl⟩ := append_cons_cases hsplit
    · -- The node stands before the one that leaves.
      cases cs with
      | nil =>
        rw [hprev as id rfl]
        rfl
      | cons c cs =>
        rw [List.append_assoc, List.nodup_append] at hnd
        have hmem : id ∉ (c :: cs) ++ victim :: ys := (List.nodup_cons.mp hnd.2.1).1
        have hlast : id ≠ lastOf (as ++ id :: c :: cs) := by
          rw [lastOf_append_cons, lastOf_cons_cons]
          rintro he
          exact hmem (List.mem_append_left _ (he ▸ lastOf_mem (by simp)))
        have hfirst : id ≠ firstOf ys := by
          intro he
          by_cases hys : ys = []
          · rw [hys, firstOf_nil] at he
            exact h.pos (by rw [he]; simp)
          · exact hmem (List.mem_append_right _
              (List.mem_cons_of_mem _ (he ▸ firstOf_mem hys)))
        rw [hother id (by rintro rfl; exact hmem (by simp)) (.inr ⟨hlast, hfirst⟩),
          h.link as id ((c :: cs) ++ victim :: ys) (by simp)]
        rfl
    · -- The node stands after the one that leaves.
      cases cs with
      | nil => rw [List.append_nil, hnext id bs rfl]
      | cons c cs =>
        have hsplit' : xs ++ victim :: (c :: cs ++ id :: bs) =
            (xs ++ victim :: c :: cs) ++ id :: bs := by simp
        rw [hsplit', List.nodup_append] at hnd
        have hmem : id ∉ xs ++ victim :: c :: cs := fun hm =>
          hnd.2.2 id hm id (List.mem_cons_self ..) rfl
        have hlast : id ≠ lastOf xs := by
          intro he
          by_cases hxs : xs = []
          · rw [hxs, lastOf_nil] at he
            exact h.pos (by rw [he]; simp)
          · exact hmem (List.mem_append_left _ (he ▸ lastOf_mem hxs))
        have hfirst : id ≠ firstOf (c :: cs ++ id :: bs) := by
          rintro rfl
          exact hmem (by simp)
        rw [hother id (by rintro rfl; exact hmem (by simp)) (.inr ⟨hlast, hfirst⟩),
          h.link _ id bs hsplit', lastOf_append_cons, lastOf_append_cons, lastOf_cons_cons]

end LinkedList
