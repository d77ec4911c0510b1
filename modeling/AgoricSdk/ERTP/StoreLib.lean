import Mathlib.Data.List.Count
import Mathlib.Data.List.Sort
import Mathlib.Tactic

/-!
The functions on keys that the amount arithmetic imports from the stores and
patterns packages, as parameters, and what it relies on about each of them.
Elements of a non-fungible asset are keys, compared as `keyEQ` compares them.
An amount's value is a bigint, an array of keys, a copySet or a copyBag;
`worth` reads it as the number of units of each asset that it holds, which is
how values of every kind are added up.
-/

namespace AgoricSdk.ERTP

/-- An alleged value of an amount, by its pass style. A copyBag lists its
elements with their counts. -/
inductive Value (κ : Type) where
  | bigint (n : Int)
  | copyArray (elements : List κ)
  | copySet (elements : List κ)
  | copyBag (entries : List (κ × Nat))
  | other
  deriving DecidableEq

variable {κ : Type}

/-- The imported functions. Those that may throw return `none` when they do. -/
structure StoreLib (κ : Type) where
  /-- whether one element passes `assertKey` -/
  isKey : κ → Bool
  coerceToElements : List κ → Option (List κ)
  elementsIsSuperset : List κ → List κ → Bool
  /-- `elementsCompare(x, y) === 0` -/
  elementsEqual : List κ → List κ → Bool
  elementsDisjointUnion : List κ → List κ → Option (List κ)
  elementsDisjointSubtract : List κ → List κ → Option (List κ)
  /-- `matches(value, M.nat())` on a bigint -/
  matchesNat : Int → Bool
  /-- `matches(value, M.arrayOf(p))` on an array -/
  matchesArrayOf : (κ → Bool) → List κ → Bool
  /-- `matches(value, M.set())` on the payload of a copySet -/
  matchesSet : List κ → Bool
  /-- `matches(value, M.setOf(p))` on the payload of a copySet -/
  matchesSetOf : (κ → Bool) → List κ → Bool
  setIsSuperset : List κ → List κ → Bool
  setDisjointUnion : List κ → List κ → Option (List κ)
  setDisjointSubtract : List κ → List κ → Option (List κ)
  /-- `matches(value, M.bag())` on the payload of a copyBag -/
  matchesBag : List (κ × Nat) → Bool
  /-- `matches(value, M.bagOf(p))` on the payload of a copyBag -/
  matchesBagOf : (κ → Bool) → List (κ × Nat) → Bool
  bagIsSuperbag : List (κ × Nat) → List (κ × Nat) → Bool
  bagUnion : List (κ × Nat) → List (κ × Nat) → Option (List (κ × Nat))
  bagDisjointSubtract : List (κ × Nat) → List (κ × Nat) → Option (List (κ × Nat))
  keyEQ : Value κ → Value κ → Bool

section Counts

variable [DecidableEq κ]

/-- How many of an element a bag holds. -/
def bagCount (entries : List (κ × Nat)) (k : κ) : Nat :=
  ((entries.filter fun e => e.1 = k).map (·.2)).sum

@[simp] theorem bagCount_nil (k : κ) : bagCount [] k = 0 := rfl

theorem bagCount_cons (e : κ × Nat) (es : List (κ × Nat)) (k : κ) :
    bagCount (e :: es) k = (if e.1 = k then e.2 else 0) + bagCount es k := by
  by_cases h : e.1 = k <;> simp [bagCount, h]

theorem le_bagCount {e : κ × Nat} {es : List (κ × Nat)} (h : e ∈ es) : e.2 ≤ bagCount es e.1 := by
  induction es with
  | nil => cases h
  | cons d ds ih =>
    rw [bagCount_cons]
    rcases List.mem_cons.mp h with rfl | h
    · simp
    · exact (ih h).trans (Nat.le_add_left ..)

theorem exists_of_bagCount_pos {es : List (κ × Nat)} {k : κ} (h : 0 < bagCount es k) :
    ∃ e ∈ es, e.1 = k := by
  induction es with
  | nil => simp at h
  | cons d ds ih =>
    by_cases hd : d.1 = k
    · exact ⟨d, List.mem_cons_self .., hd⟩
    · rw [bagCount_cons, if_neg hd, Nat.zero_add] at h
      obtain ⟨e, he, hk⟩ := ih h
      exact ⟨e, List.mem_cons_of_mem _ he, hk⟩

/-- The units of each asset in a value: `none` stands for the fungible units,
`some k` for the non-fungible element `k`. -/
def Value.worth : Value κ → Option κ → Nat
  | .bigint n, none => n.toNat
  | .copyArray elements, some k => elements.count k
  | .copySet elements, some k => elements.count k
  | .copyBag entries, some k => bagCount entries k
  | _, _ => 0

end Counts

/-- What the arithmetic relies on in one family of collections, whose members
are recognised by `valid` and counted by `count`. The union of collections that
share an element throws when `exclusive`. -/
structure CollectionLaws {ρ : Type} (valid : ρ → Prop) (count : ρ → κ → Nat) (exclusive : Prop)
    (isSuperset : ρ → ρ → Bool) (union subtract : ρ → ρ → Option ρ) : Prop where
  superset_iff : ∀ {a b}, valid a → valid b →
    (isSuperset a b = true ↔ ∀ k, count b k ≤ count a k)
  union_counts : ∀ {a b c}, valid a → valid b → union a b = some c →
    valid c ∧ ∀ k, count c k = count a k + count b k
  union_isSome : ∀ {a b}, valid a → valid b →
    (exclusive → ∀ k, count a k + count b k ≤ 1) → (union a b).isSome
  subtract_counts : ∀ {a b c}, valid a → valid b → subtract a b = some c →
    valid c ∧ ∀ k, count c k + count b k = count a k
  subtract_isSome : ∀ {a b}, valid a → valid b → (∀ k, count b k ≤ count a k) →
    (subtract a b).isSome

namespace StoreLib

variable [DecidableEq κ] (lib : StoreLib κ)

/-- An array in the form `doCoerce` of the set helpers returns: sorted elements
without duplicates, all of them keys. -/
def IsElements (elements : List κ) : Prop :=
  lib.coerceToElements elements = some elements ∧ elements.all lib.isKey = true

/-- What the amount arithmetic relies on. -/
structure Lawful : Prop where
  coerce_elements : ∀ {l l'}, lib.coerceToElements l = some l' →
    lib.coerceToElements l' = some l' ∧ l'.Perm l ∧ l'.Nodup
  coerce_nil : lib.coerceToElements [] = some []
  elements : CollectionLaws lib.IsElements (fun l k => l.count k) True
    lib.elementsIsSuperset lib.elementsDisjointUnion lib.elementsDisjointSubtract
  elements_equal_iff : ∀ {a b}, lib.IsElements a → lib.IsElements b →
    (lib.elementsEqual a b = true ↔ ∀ k, a.count k = b.count k)
  set_nodup : ∀ {l}, lib.matchesSet l = true → l.Nodup
  set_nil : lib.matchesSet [] = true
  sets : CollectionLaws (fun l => lib.matchesSet l = true) (fun l k => l.count k) True
    lib.setIsSuperset lib.setDisjointUnion lib.setDisjointSubtract
  set_keyEQ_iff : ∀ {a b}, lib.matchesSet a = true → lib.matchesSet b = true →
    (lib.keyEQ (.copySet a) (.copySet b) = true ↔ ∀ k, a.count k = b.count k)
  bag_pos : ∀ {es}, lib.matchesBag es = true → ∀ e ∈ es, 0 < e.2
  bag_nil : lib.matchesBag [] = true
  bags : CollectionLaws (fun es => lib.matchesBag es = true) bagCount False
    lib.bagIsSuperbag lib.bagUnion lib.bagDisjointSubtract
  bag_keyEQ_iff : ∀ {a b}, lib.matchesBag a = true → lib.matchesBag b = true →
    (lib.keyEQ (.copyBag a) (.copyBag b) = true ↔ ∀ k, bagCount a k = bagCount b k)
  nat_iff : ∀ n, lib.matchesNat n = true ↔ 0 ≤ n
  arrayOf_iff : ∀ p l, lib.matchesArrayOf p l = true ↔ ∀ k ∈ l, p k = true
  setOf_iff : ∀ p l, lib.matchesSetOf p l = true ↔ lib.matchesSet l = true ∧ ∀ k ∈ l, p k = true
  bagOf_iff : ∀ p es, lib.matchesBagOf p es = true ↔
    lib.matchesBag es = true ∧ ∀ e ∈ es, p e.1 = true

end StoreLib

end AgoricSdk.ERTP
