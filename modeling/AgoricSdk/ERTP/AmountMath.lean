import AgoricSdk.ERTP.StoreLib

/-!
Amounts and their arithmetic. The helpers of each asset kind work on coerced
values, the amount functions check brand and kind and coerce before they call
them; `none` stands for a throw. The specification of a helper is the same for
every kind: the units add up, are compared and are taken away asset by asset.
-/

namespace AgoricSdk.ERTP

variable {β κ : Type} [DecidableEq β] [DecidableEq κ]

inductive AssetKind where
  | nat
  | set
  | copySet
  | copyBag
  deriving DecidableEq

/-- Kinds whose assets are unique: two amounts that share one do not add up. -/
def AssetKind.Unique (kind : AssetKind) : Prop := kind = .set ∨ kind = .copySet

structure Amount (β κ : Type) where
  brand : β
  value : Value κ
  deriving DecidableEq

/-- The polymorphic functions that know how to deal with the values of a kind. -/
structure MathHelpers (κ : Type) where
  doCoerce : Value κ → Option (Value κ)
  doMakeEmpty : Value κ
  doIsEmpty : Value κ → Bool
  doIsGTE : Value κ → Value κ → Bool
  doIsEqual : Value κ → Value κ → Bool
  doAdd : Value κ → Value κ → Option (Value κ)
  doSubtract : Value κ → Value κ → Option (Value κ)

variable (lib : StoreLib κ)

def natMathHelpers : MathHelpers κ where
  doCoerce
    | .bigint n => if 0 ≤ n then some (.bigint n) else none
    | _ => none
  doMakeEmpty := .bigint 0
  doIsEmpty
    | .bigint n => n = 0
    | _ => false
  doIsGTE
    | .bigint left, .bigint right => left ≥ right
    | _, _ => false
  doIsEqual
    | .bigint left, .bigint right => left = right
    | _, _ => false
  doAdd
    | .bigint left, .bigint right => some (.bigint (left + right))
    | _, _ => none
  doSubtract
    | .bigint left, .bigint right =>
        if 0 ≤ left - right then some (.bigint (left - right)) else none
    | _, _ => none

def setMathHelpers : MathHelpers κ where
  doCoerce
    | .copyArray list => do
        let list ← lib.coerceToElements list
        if list.all lib.isKey then some (.copyArray list) else none
    | _ => none
  doMakeEmpty := .copyArray []
  doIsEmpty
    | .copyArray list => list.length = 0
    | _ => false
  doIsGTE
    | .copyArray left, .copyArray right => lib.elementsIsSuperset left right
    | _, _ => false
  doIsEqual
    | .copyArray x, .copyArray y => lib.elementsEqual x y
    | _, _ => false
  doAdd
    | .copyArray left, .copyArray right => (lib.elementsDisjointUnion left right).map .copyArray
    | _, _ => none
  doSubtract
    | .copyArray left, .copyArray right => (lib.elementsDisjointSubtract left right).map .copyArray
    | _, _ => none

def copySetMathHelpers : MathHelpers κ where
  doCoerce
    | .copySet set => if lib.matchesSet set then some (.copySet set) else none
    | _ => none
  doMakeEmpty := .copySet []
  doIsEmpty
    | .copySet set => set.length = 0
    | _ => false
  doIsGTE
    | .copySet left, .copySet right => lib.setIsSuperset left right
    | _, _ => false
  doIsEqual := lib.keyEQ
  doAdd
    | .copySet left, .copySet right => (lib.setDisjointUnion left right).map .copySet
    | _, _ => none
  doSubtract
    | .copySet left, .copySet right => (lib.setDisjointSubtract left right).map .copySet
    | _, _ => none

def copyBagMathHelpers : MathHelpers κ where
  doCoerce
    | .copyBag bag => if lib.matchesBag bag then some (.copyBag bag) else none
    | _ => none
  doMakeEmpty := .copyBag []
  doIsEmpty
    | .copyBag bag => bag.length = 0
    | _ => false
  doIsGTE
    | .copyBag left, .copyBag right => lib.bagIsSuperbag left right
    | _, _ => false
  doIsEqual := lib.keyEQ
  doAdd
    | .copyBag left, .copyBag right => (lib.bagUnion left right).map .copyBag
    | _, _ => none
  doSubtract
    | .copyBag left, .copyBag right => (lib.bagDisjointSubtract left right).map .copyBag
    | _, _ => none

def helpers : AssetKind → MathHelpers κ
  | .nat => natMathHelpers
  | .set => setMathHelpers lib
  | .copySet => copySetMathHelpers lib
  | .copyBag => copyBagMathHelpers lib

def assertValueGetAssetKind : Value κ → Option AssetKind
  | .bigint _ => some .nat
  | .copyArray _ => some .set
  | .copySet set => if lib.matchesSet set then some .copySet else none
  | .copyBag bag => if lib.matchesBag bag then some .copyBag else none
  | .other => none

def optionalBrandCheck (allegedBrand : β) (brand : Option β) : Option Unit :=
  match brand with
  | some brand => if allegedBrand = brand then some () else none
  | none => some ()

/-- The kind stands for its helpers. -/
def checkLRAndGetHelpers (leftAmount rightAmount : Amount β κ) (brand : Option β) :
    Option AssetKind := do
  optionalBrandCheck leftAmount.brand brand
  optionalBrandCheck rightAmount.brand brand
  if leftAmount.brand = rightAmount.brand then
    let leftHelpers ← assertValueGetAssetKind lib leftAmount.value
    let rightHelpers ← assertValueGetAssetKind lib rightAmount.value
    if leftHelpers = rightHelpers then some leftHelpers else none
  else none

def coerceLR (h : MathHelpers κ) (leftAmount rightAmount : Amount β κ) :
    Option (Value κ × Value κ) := do
  let left ← h.doCoerce leftAmount.value
  let right ← h.doCoerce rightAmount.value
  some (left, right)

namespace AmountMath

def make (brand : β) (allegedValue : Value κ) : Option (Amount β κ) := do
  let kind ← assertValueGetAssetKind lib allegedValue
  let value ← (helpers lib kind).doCoerce allegedValue
  some { brand, value }

def coerce (brand : β) (allegedAmount : Amount β κ) : Option (Amount β κ) :=
  if brand = allegedAmount.brand then make lib brand allegedAmount.value else none

def makeEmpty (brand : β) (assetKind : AssetKind) : Amount β κ :=
  { brand, value := (helpers lib assetKind).doMakeEmpty }

def makeEmptyFromAmount (amount : Amount β κ) : Option (Amount β κ) := do
  let assetKind ← assertValueGetAssetKind lib amount.value
  some (makeEmpty lib amount.brand assetKind)

def isEmpty (amount : Amount β κ) (brand : Option β) : Option Bool := do
  optionalBrandCheck amount.brand brand
  let kind ← assertValueGetAssetKind lib amount.value
  let value ← (helpers lib kind).doCoerce amount.value
  some ((helpers lib kind).doIsEmpty value)

def isGTE (leftAmount rightAmount : Amount β κ) (brand : Option β) : Option Bool := do
  let kind ← checkLRAndGetHelpers lib leftAmount rightAmount brand
  let (left, right) ← coerceLR (helpers lib kind) leftAmount rightAmount
  some ((helpers lib kind).doIsGTE left right)

def isEqual (leftAmount rightAmount : Amount β κ) (brand : Option β) : Option Bool := do
  let kind ← checkLRAndGetHelpers lib leftAmount rightAmount brand
  let (left, right) ← coerceLR (helpers lib kind) leftAmount rightAmount
  some ((helpers lib kind).doIsEqual left right)

def add (leftAmount rightAmount : Amount β κ) (brand : Option β) : Option (Amount β κ) := do
  let kind ← checkLRAndGetHelpers lib leftAmount rightAmount brand
  let (left, right) ← coerceLR (helpers lib kind) leftAmount rightAmount
  let value ← (helpers lib kind).doAdd left right
  some { brand := leftAmount.brand, value }

def subtract (leftAmount rightAmount : Amount β κ) (brand : Option β) : Option (Amount β κ) := do
  let kind ← checkLRAndGetHelpers lib leftAmount rightAmount brand
  let (left, right) ← coerceLR (helpers lib kind) leftAmount rightAmount
  let value ← (helpers lib kind).doSubtract left right
  some { brand := leftAmount.brand, value }

end AmountMath

/-! ## The specification of the helpers -/

namespace MathHelpers

variable {lib}

/-- A value in the form that `doCoerce` returns. -/
def Coerced (h : MathHelpers κ) (v : Value κ) : Prop := h.doCoerce v = some v

/-- What every kind's helpers do, in units of the assets. -/
structure Sound (h : MathHelpers κ) (unique : Prop) : Prop where
  coerce : ∀ {v w}, h.doCoerce v = some w → h.Coerced w ∧ w.worth = v.worth
  empty : h.Coerced h.doMakeEmpty ∧ h.doMakeEmpty.worth = 0
  isEmpty_iff : ∀ {v}, h.Coerced v → (h.doIsEmpty v = true ↔ v.worth = 0)
  isGTE_iff : ∀ {v w}, h.Coerced v → h.Coerced w → (h.doIsGTE v w = true ↔ w.worth ≤ v.worth)
  isEqual_iff : ∀ {v w}, h.Coerced v → h.Coerced w →
    (h.doIsEqual v w = true ↔ v.worth = w.worth)
  add : ∀ {v w u}, h.Coerced v → h.Coerced w → h.doAdd v w = some u →
    h.Coerced u ∧ u.worth = v.worth + w.worth
  add_isSome : ∀ {v w}, h.Coerced v → h.Coerced w →
    (unique → ∀ c, v.worth c + w.worth c ≤ 1) → (h.doAdd v w).isSome
  subtract : ∀ {v w u}, h.Coerced v → h.Coerced w → h.doSubtract v w = some u →
    h.Coerced u ∧ u.worth + w.worth = v.worth
  subtract_isSome : ∀ {v w}, h.Coerced v → h.Coerced w → w.worth ≤ v.worth →
    (h.doSubtract v w).isSome
  worth_le_one : ∀ {v}, unique → h.Coerced v → ∀ c, v.worth c ≤ 1

/-- How the helpers of one kind of collection are built from its functions. -/
structure Collection {ρ : Type} (h : MathHelpers κ) (mk : ρ → Value κ) (valid : ρ → Prop)
    (count : ρ → κ → Nat) (isSuperset : ρ → ρ → Bool) (union subtract : ρ → ρ → Option ρ) :
    Prop where
  worth_some : ∀ l k, (mk l).worth (some k) = count l k
  worth_none : ∀ l, (mk l).worth none = 0
  coerced_iff : ∀ v, h.Coerced v ↔ ∃ l, v = mk l ∧ valid l
  isGTE : ∀ a b, h.doIsGTE (mk a) (mk b) = isSuperset a b
  add : ∀ a b, h.doAdd (mk a) (mk b) = (union a b).map mk
  subtract : ∀ a b, h.doSubtract (mk a) (mk b) = (subtract a b).map mk
  coerce : ∀ {v w}, h.doCoerce v = some w → h.Coerced w ∧ w.worth = v.worth
  empty : h.Coerced h.doMakeEmpty ∧ h.doMakeEmpty.worth = 0
  isEmpty_iff : ∀ {l}, valid l → (h.doIsEmpty (mk l) = true ↔ ∀ k, count l k = 0)
  isEqual_iff : ∀ {a b}, valid a → valid b →
    (h.doIsEqual (mk a) (mk b) = true ↔ ∀ k, count a k = count b k)

section Collections

variable {ρ : Type} {h : MathHelpers κ} {mk : ρ → Value κ} {valid : ρ → Prop}
  {count : ρ → κ → Nat} {isSuperset : ρ → ρ → Bool} {union subtract : ρ → ρ → Option ρ}
  {exclusive : Prop}

private theorem forall_worth_iff {v : Value κ} {P : Option κ → Nat → Prop} (hnone : P none 0)
    (hv : v.worth none = 0) : (∀ c, P c (v.worth c)) ↔ ∀ k, P (some k) (v.worth (some k)) := by
  constructor
  · intro h k
    exact h (some k)
  · intro h c
    cases c with
    | none => rwa [hv]
    | some k => exact h k

variable (mk valid) in
theorem Collection.sound
    (c : Collection h mk valid count isSuperset union subtract)
    (laws : CollectionLaws valid count exclusive isSuperset union subtract)
    (hone : exclusive → ∀ l, valid l → ∀ k, count l k ≤ 1) : h.Sound exclusive where
  coerce := c.coerce
  empty := c.empty
  isEmpty_iff := by
    intro v hv
    obtain ⟨l, rfl, hl⟩ := (c.coerced_iff v).mp hv
    have hzero := forall_worth_iff (P := fun _ n => n = 0) rfl (c.worth_none l)
    rw [c.isEmpty_iff hl, funext_iff]
    simpa only [c.worth_some, Pi.zero_apply] using hzero.symm
  isGTE_iff := by
    intro v w hv hw
    obtain ⟨a, rfl, ha⟩ := (c.coerced_iff v).mp hv
    obtain ⟨b, rfl, hb⟩ := (c.coerced_iff w).mp hw
    rw [c.isGTE, laws.superset_iff ha hb, Pi.le_def,
      forall_worth_iff (P := fun k n => n ≤ (mk a).worth k) (Nat.zero_le _) (c.worth_none b)]
    simp only [c.worth_some]
  isEqual_iff := by
    intro v w hv hw
    obtain ⟨a, rfl, ha⟩ := (c.coerced_iff v).mp hv
    obtain ⟨b, rfl, hb⟩ := (c.coerced_iff w).mp hw
    rw [c.isEqual_iff ha hb, funext_iff,
      forall_worth_iff (P := fun k n => n = (mk b).worth k) (c.worth_none b).symm (c.worth_none a)]
    simp only [c.worth_some]
  add := by
    intro v w u hv hw hu
    obtain ⟨a, rfl, ha⟩ := (c.coerced_iff v).mp hv
    obtain ⟨b, rfl, hb⟩ := (c.coerced_iff w).mp hw
    rw [c.add] at hu
    obtain ⟨d, hd, rfl⟩ := Option.map_eq_some_iff.mp hu
    obtain ⟨hvalid, hcount⟩ := laws.union_counts ha hb hd
    refine ⟨(c.coerced_iff _).mpr ⟨d, rfl, hvalid⟩, funext fun k => ?_⟩
    cases k with
    | none => simp [c.worth_none]
    | some k => simp [c.worth_some, hcount]
  add_isSome := by
    intro v w hv hw hfit
    obtain ⟨a, rfl, ha⟩ := (c.coerced_iff v).mp hv
    obtain ⟨b, rfl, hb⟩ := (c.coerced_iff w).mp hw
    rw [c.add, Option.isSome_map]
    refine laws.union_isSome ha hb fun he k => ?_
    simpa [c.worth_some] using hfit he (some k)
  subtract := by
    intro v w u hv hw hu
    obtain ⟨a, rfl, ha⟩ := (c.coerced_iff v).mp hv
    obtain ⟨b, rfl, hb⟩ := (c.coerced_iff w).mp hw
    rw [c.subtract] at hu
    obtain ⟨d, hd, rfl⟩ := Option.map_eq_some_iff.mp hu
    obtain ⟨hvalid, hcount⟩ := laws.subtract_counts ha hb hd
    refine ⟨(c.coerced_iff _).mpr ⟨d, rfl, hvalid⟩, funext fun k => ?_⟩
    cases k with
    | none => simp [c.worth_none]
    | some k => simpa [c.worth_some] using hcount k
  subtract_isSome := by
    intro v w hv hw hle
    obtain ⟨a, rfl, ha⟩ := (c.coerced_iff v).mp hv
    obtain ⟨b, rfl, hb⟩ := (c.coerced_iff w).mp hw
    rw [c.subtract, Option.isSome_map]
    refine laws.subtract_isSome ha hb fun k => ?_
    simpa [c.worth_some] using hle (some k)
  worth_le_one := by
    intro v he hv k
    obtain ⟨a, rfl, ha⟩ := (c.coerced_iff v).mp hv
    cases k with
    | none => simp [c.worth_none]
    | some k => simpa [c.worth_some] using hone he a ha k

end Collections

theorem natMathHelpers_sound : (natMathHelpers : MathHelpers κ).Sound False := by
  have hcoerced : ∀ v : Value κ, natMathHelpers.Coerced v ↔ ∃ n : Nat, v = .bigint n := by
    intro v
    constructor
    · intro hv
      cases v with
      | bigint n =>
        by_cases hn : 0 ≤ n
        · exact ⟨n.toNat, by rw [Int.toNat_of_nonneg hn]⟩
        · exact absurd (Option.ite_none_right_eq_some.mp hv).1 hn
      | _ => cases hv
    · rintro ⟨n, rfl⟩
      exact if_pos (e := none) (Int.natCast_nonneg n)
  have hworth : ∀ n m : Nat,
      (Value.bigint n : Value κ).worth = (Value.bigint m : Value κ).worth ↔ n = m := by
    intro n m
    constructor
    · intro h
      simpa [Value.worth] using congrFun h none
    · rintro rfl
      rfl
  constructor
  case coerce =>
    intro v w h
    cases v with
    | bigint n =>
      simp only [natMathHelpers] at h
      split at h
      case isTrue hn =>
        cases h
        exact ⟨if_pos hn, rfl⟩
      case isFalse => cases h
    | _ => cases h
  case empty => exact ⟨rfl, funext fun c => by cases c <;> rfl⟩
  case isEmpty_iff =>
    intro v hv
    obtain ⟨n, rfl⟩ := (hcoerced v).mp hv
    rw [show (0 : Option κ → Nat) = (Value.bigint (0 : Nat) : Value κ).worth from
      funext fun c => by cases c <;> rfl, hworth]
    exact decide_eq_true_iff.trans Int.natCast_eq_zero
  case isGTE_iff =>
    intro v w hv hw
    obtain ⟨n, rfl⟩ := (hcoerced v).mp hv
    obtain ⟨m, rfl⟩ := (hcoerced w).mp hw
    constructor
    · intro h c
      cases c with
      | none => exact Int.toNat_le_toNat (of_decide_eq_true h)
      | some k => exact le_rfl
    · intro h
      exact decide_eq_true (Int.ofNat_le.mpr (h none))
  case isEqual_iff =>
    intro v w hv hw
    obtain ⟨n, rfl⟩ := (hcoerced v).mp hv
    obtain ⟨m, rfl⟩ := (hcoerced w).mp hw
    rw [hworth]
    exact decide_eq_true_iff.trans Int.natCast_inj
  case add =>
    intro v w u hv hw hu
    obtain ⟨n, rfl⟩ := (hcoerced v).mp hv
    obtain ⟨m, rfl⟩ := (hcoerced w).mp hw
    cases hu
    refine ⟨(hcoerced _).mpr ⟨n + m, by simp⟩, funext fun c => ?_⟩
    cases c with
    | none => simp only [Value.worth, Pi.add_apply]; omega
    | some k => rfl
  case add_isSome =>
    intro v w hv hw _
    obtain ⟨n, rfl⟩ := (hcoerced v).mp hv
    obtain ⟨m, rfl⟩ := (hcoerced w).mp hw
    rfl
  case subtract =>
    intro v w u hv hw hu
    obtain ⟨n, rfl⟩ := (hcoerced v).mp hv
    obtain ⟨m, rfl⟩ := (hcoerced w).mp hw
    simp only [natMathHelpers] at hu
    split at hu
    case isTrue h =>
      cases hu
      refine ⟨if_pos h, funext fun c => ?_⟩
      cases c with
      | none => simp only [Value.worth, Pi.add_apply]; omega
      | some k => rfl
    case isFalse => cases hu
  case subtract_isSome =>
    intro v w hv hw hle
    obtain ⟨n, rfl⟩ := (hcoerced v).mp hv
    obtain ⟨m, rfl⟩ := (hcoerced w).mp hw
    have hnm : m ≤ n := by simpa [Value.worth] using hle none
    have hdiff : (0 : Int) ≤ n - m := by omega
    change (if (0 : Int) ≤ n - m then some (Value.bigint (n - m : Int) : Value κ)
      else none).isSome = true
    rw [if_pos hdiff]
    rfl
  case worth_le_one => exact fun h => h.elim

variable (hl : lib.Lawful)

include hl

theorem setMathHelpers_sound : (setMathHelpers lib).Sound True := by
  have hcoerced : ∀ v, (setMathHelpers lib).Coerced v ↔ ∃ l, v = .copyArray l ∧ lib.IsElements l := by
    intro v
    constructor
    · intro hv
      cases v with
      | copyArray l =>
        simp only [Coerced, setMathHelpers, Option.bind_eq_bind, Option.bind_eq_some_iff] at hv
        obtain ⟨l', hl', hv⟩ := hv
        split at hv
        case isTrue hkeys =>
          cases hv
          exact ⟨l, rfl, hl', hkeys⟩
        case isFalse => cases hv
      | _ => cases hv
    · rintro ⟨l, rfl, hl', hkeys⟩
      simp only [Coerced, setMathHelpers, hl', Option.bind_eq_bind, Option.bind_some, hkeys,
        if_true]
  have hnodup : ∀ l, lib.IsElements l → l.Nodup := fun l h => (hl.coerce_elements h.1).2.2
  refine Collection.sound Value.copyArray lib.IsElements ?_ hl.elements
    fun _ l h k => List.nodup_iff_count_le_one.mp (hnodup l h) k
  constructor
  case worth_some => exact fun _ _ => rfl
  case worth_none => exact fun _ => rfl
  case coerced_iff => exact hcoerced
  case isGTE => exact fun _ _ => rfl
  case add => exact fun _ _ => rfl
  case subtract => exact fun _ _ => rfl
  case coerce =>
    intro v w h
    cases v with
    | copyArray l =>
      simp only [setMathHelpers, Option.bind_eq_bind, Option.bind_eq_some_iff] at h
      obtain ⟨l', hl', h⟩ := h
      split at h
      case isTrue hkeys =>
        cases h
        obtain ⟨hidem, hperm, -⟩ := hl.coerce_elements hl'
        refine ⟨(hcoerced _).mpr ⟨l', rfl, hidem, hkeys⟩, funext fun c => ?_⟩
        cases c with
        | none => rfl
        | some k => exact hperm.count_eq k
      case isFalse => cases h
    | _ => cases h
  case empty =>
    refine ⟨(hcoerced _).mpr ⟨[], rfl, hl.coerce_nil, rfl⟩, funext fun c => ?_⟩
    cases c <;> rfl
  case isEmpty_iff =>
    intro l _
    simp [setMathHelpers, List.count_eq_zero, List.eq_nil_iff_forall_not_mem]
  case isEqual_iff => exact fun ha hb => hl.elements_equal_iff ha hb

theorem copySetMathHelpers_sound : (copySetMathHelpers lib).Sound True := by
  have hcoerced : ∀ v, (copySetMathHelpers lib).Coerced v ↔
      ∃ l, v = .copySet l ∧ lib.matchesSet l = true := by
    intro v
    constructor
    · intro hv
      cases v with
      | copySet l =>
        simp only [Coerced, copySetMathHelpers] at hv
        split at hv
        case isTrue h => exact ⟨l, rfl, h⟩
        case isFalse => cases hv
      | _ => cases hv
    · rintro ⟨l, rfl, h⟩
      simp [Coerced, copySetMathHelpers, h]
  refine Collection.sound Value.copySet (fun l => lib.matchesSet l = true) ?_ hl.sets
    fun _ l h k => List.nodup_iff_count_le_one.mp (hl.set_nodup h) k
  constructor
  case worth_some => exact fun _ _ => rfl
  case worth_none => exact fun _ => rfl
  case coerced_iff => exact hcoerced
  case isGTE => exact fun _ _ => rfl
  case add => exact fun _ _ => rfl
  case subtract => exact fun _ _ => rfl
  case coerce =>
    intro v w h
    cases v with
    | copySet l =>
      simp only [copySetMathHelpers] at h
      split at h
      case isTrue hset =>
        cases h
        exact ⟨(hcoerced _).mpr ⟨l, rfl, hset⟩, rfl⟩
      case isFalse => cases h
    | _ => cases h
  case empty =>
    refine ⟨(hcoerced _).mpr ⟨[], rfl, hl.set_nil⟩, funext fun c => ?_⟩
    cases c <;> rfl
  case isEmpty_iff =>
    intro l _
    simp [copySetMathHelpers, List.count_eq_zero, List.eq_nil_iff_forall_not_mem]
  case isEqual_iff => exact fun ha hb => hl.set_keyEQ_iff ha hb

theorem copyBagMathHelpers_sound : (copyBagMathHelpers lib).Sound False := by
  have hcoerced : ∀ v, (copyBagMathHelpers lib).Coerced v ↔
      ∃ l, v = .copyBag l ∧ lib.matchesBag l = true := by
    intro v
    constructor
    · intro hv
      cases v with
      | copyBag l =>
        simp only [Coerced, copyBagMathHelpers] at hv
        split at hv
        case isTrue h => exact ⟨l, rfl, h⟩
        case isFalse => cases hv
      | _ => cases hv
    · rintro ⟨l, rfl, h⟩
      simp [Coerced, copyBagMathHelpers, h]
  refine Collection.sound Value.copyBag (fun es => lib.matchesBag es = true) ?_ hl.bags
    fun h => h.elim
  constructor
  case worth_some => exact fun _ _ => rfl
  case worth_none => exact fun _ => rfl
  case coerced_iff => exact hcoerced
  case isGTE => exact fun _ _ => rfl
  case add => exact fun _ _ => rfl
  case subtract => exact fun _ _ => rfl
  case coerce =>
    intro v w h
    cases v with
    | copyBag l =>
      simp only [copyBagMathHelpers] at h
      split at h
      case isTrue hbag =>
        cases h
        exact ⟨(hcoerced _).mpr ⟨l, rfl, hbag⟩, rfl⟩
      case isFalse => cases h
    | _ => cases h
  case empty =>
    refine ⟨(hcoerced _).mpr ⟨[], rfl, hl.bag_nil⟩, funext fun c => ?_⟩
    cases c <;> rfl
  case isEmpty_iff =>
    intro l hbag
    cases l with
    | nil => simp [copyBagMathHelpers]
    | cons e es =>
      -- a bag lists no element with count zero
      have hpos := hl.bag_pos hbag e (List.mem_cons_self ..)
      have hle : e.2 ≤ bagCount (e :: es) e.1 := le_bagCount (List.mem_cons_self ..)
      simp only [copyBagMathHelpers, List.length_cons, Nat.add_eq_zero_iff, one_ne_zero, and_false,
        decide_false, Bool.false_eq_true, false_iff, not_forall]
      exact ⟨e.1, by omega⟩
  case isEqual_iff => exact fun ha hb => hl.bag_keyEQ_iff ha hb

theorem helpers_sound (kind : AssetKind) : (helpers lib kind).Sound kind.Unique := by
  cases kind with
  | nat => simpa [AssetKind.Unique, helpers] using natMathHelpers_sound
  | set => simpa [AssetKind.Unique, helpers] using setMathHelpers_sound hl
  | copySet => simpa [AssetKind.Unique, helpers] using copySetMathHelpers_sound hl
  | copyBag => simpa [AssetKind.Unique, helpers] using copyBagMathHelpers_sound hl

end MathHelpers

/-! ## The specification of the amount functions -/

namespace Amount

/-- The units of each asset of the brand that the amount holds. -/
def worth (a : Amount β κ) : Option κ → Nat := a.value.worth

/-- An amount of the brand in coerced form, with a value of the kind. -/
structure Valid (brand : β) (kind : AssetKind) (a : Amount β κ) : Prop where
  brand_eq : a.brand = brand
  coerced : (helpers lib kind).Coerced a.value

end Amount

omit [DecidableEq κ] in
theorem assertValueGetAssetKind_of_coerced {lib : StoreLib κ} {kind : AssetKind} {v : Value κ}
    (hv : (helpers lib kind).Coerced v) : assertValueGetAssetKind lib v = some kind := by
  cases kind with
  | nat =>
    cases v with
    | bigint => rfl
    | _ => cases hv
  | set =>
    cases v with
    | copyArray => rfl
    | _ => cases hv
  | copySet =>
    cases v with
    | copySet => exact if_pos (Option.ite_none_right_eq_some.mp hv).1
    | _ => cases hv
  | copyBag =>
    cases v with
    | copyBag => exact if_pos (Option.ite_none_right_eq_some.mp hv).1
    | _ => cases hv

namespace AmountMath

variable {lib} {brand : β} {kind : AssetKind} {x y z : Amount β κ}

omit [DecidableEq κ] in
theorem checkLRAndGetHelpers_valid (hx : x.Valid lib brand kind) (hy : y.Valid lib brand kind) :
    checkLRAndGetHelpers lib x y none = some kind := by
  simp [checkLRAndGetHelpers, optionalBrandCheck, hx.brand_eq, hy.brand_eq,
    assertValueGetAssetKind_of_coerced hx.coerced, assertValueGetAssetKind_of_coerced hy.coerced]

omit [DecidableEq β] [DecidableEq κ] in
theorem coerceLR_valid (hx : x.Valid lib brand kind) (hy : y.Valid lib brand kind) :
    coerceLR (helpers lib kind) x y = some (x.value, y.value) := by
  have hxv : (helpers lib kind).doCoerce x.value = some x.value := hx.coerced
  have hyv : (helpers lib kind).doCoerce y.value = some y.value := hy.coerced
  simp [coerceLR, hxv, hyv]

omit [DecidableEq κ] in
theorem checkLRAndGetHelpers_brand (hx : x.Valid lib brand kind) (hy : y.Valid lib brand kind) :
    checkLRAndGetHelpers lib x y (some brand) = checkLRAndGetHelpers lib x y none := by
  simp [checkLRAndGetHelpers, optionalBrandCheck, hx.brand_eq, hy.brand_eq]

omit [DecidableEq κ] in
theorem coerce_valid (hx : x.Valid lib brand kind) : coerce lib brand x = some x := by
  have hxv : (helpers lib kind).doCoerce x.value = some x.value := hx.coerced
  obtain rfl := hx.brand_eq
  simp [coerce, make, assertValueGetAssetKind_of_coerced hx.coerced, hxv]

omit [DecidableEq κ] in
theorem add_brand (hx : x.Valid lib brand kind) (hy : y.Valid lib brand kind) :
    add lib x y (some brand) = add lib x y none := by
  unfold add
  rw [checkLRAndGetHelpers_brand hx hy]

variable (hl : lib.Lawful)

include hl

theorem coerce_some (h : coerce lib brand x = some y) :
    ∃ kind, assertValueGetAssetKind lib x.value = some kind ∧ y.Valid lib brand kind ∧
      y.worth = x.worth := by
  unfold coerce make at h
  split at h
  case isTrue =>
    simp only [Option.bind_eq_bind, Option.bind_eq_some_iff] at h
    obtain ⟨kind, hkind, v, hv, h⟩ := h
    cases h
    obtain ⟨hc, hw⟩ := (MathHelpers.helpers_sound hl kind).coerce hv
    exact ⟨kind, hkind, ⟨rfl, hc⟩, hw⟩
  case isFalse => cases h

omit [DecidableEq β] in
theorem makeEmpty_valid (brand : β) (kind : AssetKind) :
    (makeEmpty lib brand kind).Valid lib brand kind ∧ (makeEmpty lib brand kind).worth = 0 :=
  ⟨⟨rfl, (MathHelpers.helpers_sound hl kind).empty.1⟩, (MathHelpers.helpers_sound hl kind).empty.2⟩

theorem isEmpty_valid (hx : x.Valid lib brand kind) :
    ∃ r, isEmpty lib x none = some r ∧ (r = true ↔ x.worth = 0) := by
  have hxv : (helpers lib kind).doCoerce x.value = some x.value := hx.coerced
  refine ⟨_, ?_, (MathHelpers.helpers_sound hl kind).isEmpty_iff hx.coerced⟩
  simp [isEmpty, optionalBrandCheck, assertValueGetAssetKind_of_coerced hx.coerced, hxv]

theorem add_some (hx : x.Valid lib brand kind) (hy : y.Valid lib brand kind)
    (h : add lib x y none = some z) : z.Valid lib brand kind ∧ z.worth = x.worth + y.worth := by
  simp only [add, checkLRAndGetHelpers_valid hx hy, coerceLR_valid hx hy, Option.bind_eq_bind,
    Option.bind_some, Option.bind_eq_some_iff] at h
  obtain ⟨v, hv, h⟩ := h
  cases h
  obtain ⟨hc, hw⟩ := (MathHelpers.helpers_sound hl kind).add hx.coerced hy.coerced hv
  exact ⟨⟨hx.brand_eq, hc⟩, hw⟩

/-- Amounts of unique assets add up when they have none in common, other
amounts always. -/
theorem add_isSome (hx : x.Valid lib brand kind) (hy : y.Valid lib brand kind)
    (hfit : kind.Unique → ∀ c, x.worth c + y.worth c ≤ 1) : (add lib x y none).isSome := by
  obtain ⟨v, hv⟩ := Option.isSome_iff_exists.mp
    ((MathHelpers.helpers_sound hl kind).add_isSome hx.coerced hy.coerced hfit)
  simp [add, checkLRAndGetHelpers_valid hx hy, coerceLR_valid hx hy, hv]

theorem isGTE_valid (hx : x.Valid lib brand kind) (hy : y.Valid lib brand kind) :
    ∃ r, isGTE lib x y none = some r ∧ (r = true ↔ y.worth ≤ x.worth) := by
  refine ⟨_, ?_, (MathHelpers.helpers_sound hl kind).isGTE_iff hx.coerced hy.coerced⟩
  simp [isGTE, checkLRAndGetHelpers_valid hx hy, coerceLR_valid hx hy]

theorem subtract_some (hx : x.Valid lib brand kind) (hy : y.Valid lib brand kind)
    (h : subtract lib x y none = some z) : z.Valid lib brand kind ∧ z.worth + y.worth = x.worth := by
  simp only [subtract, checkLRAndGetHelpers_valid hx hy, coerceLR_valid hx hy, Option.bind_eq_bind,
    Option.bind_some, Option.bind_eq_some_iff] at h
  obtain ⟨v, hv, h⟩ := h
  cases h
  obtain ⟨hc, hw⟩ := (MathHelpers.helpers_sound hl kind).subtract hx.coerced hy.coerced hv
  exact ⟨⟨hx.brand_eq, hc⟩, hw⟩

theorem subtract_isSome (hx : x.Valid lib brand kind) (hy : y.Valid lib brand kind)
    (hle : y.worth ≤ x.worth) : (subtract lib x y none).isSome := by
  obtain ⟨v, hv⟩ := Option.isSome_iff_exists.mp
    ((MathHelpers.helpers_sound hl kind).subtract_isSome hx.coerced hy.coerced hle)
  simp [subtract, checkLRAndGetHelpers_valid hx hy, coerceLR_valid hx hy, hv]

/-! What a call that returns says about amounts that nobody checked before. -/

omit hl [DecidableEq κ] in
theorem checkLRAndGetHelpers_some {b : Option β}
    (h : checkLRAndGetHelpers lib x y b = some kind) :
    x.brand = y.brand ∧ (∀ b', b = some b' → x.brand = b') := by
  simp only [checkLRAndGetHelpers, Option.bind_eq_bind, Option.bind_eq_some_iff] at h
  obtain ⟨_, hb, _, -, h⟩ := h
  refine ⟨?_, ?_⟩
  · split at h
    case isTrue hbrand => exact hbrand
    case isFalse => cases h
  · rintro b' rfl
    simp only [optionalBrandCheck] at hb
    split at hb
    case isTrue hbrand => exact hbrand
    case isFalse => cases hb

omit [DecidableEq β] in
theorem coerceLR_some {v w : Value κ} (h : coerceLR (helpers lib kind) x y = some (v, w)) :
    ((helpers lib kind).Coerced v ∧ v.worth = x.worth) ∧
      (helpers lib kind).Coerced w ∧ w.worth = y.worth := by
  simp only [coerceLR, Option.bind_eq_bind, Option.bind_eq_some_iff] at h
  obtain ⟨v', hv, w', hw, h⟩ := h
  cases h
  exact ⟨(MathHelpers.helpers_sound hl kind).coerce hv, (MathHelpers.helpers_sound hl kind).coerce hw⟩

theorem add_worth {b : Option β} (h : add lib x y b = some z) :
    z.brand = x.brand ∧ x.brand = y.brand ∧ (∀ b', b = some b' → x.brand = b') ∧
      z.worth = x.worth + y.worth := by
  simp only [add, Option.bind_eq_bind, Option.bind_eq_some_iff] at h
  obtain ⟨kind, hkind, ⟨v, w⟩, hvw, u, hu, h⟩ := h
  cases h
  obtain ⟨⟨hv, hxv⟩, hw, hyw⟩ := coerceLR_some hl hvw
  obtain ⟨hbrand, hb⟩ := checkLRAndGetHelpers_some hkind
  obtain ⟨-, hworth⟩ := (MathHelpers.helpers_sound hl kind).add hv hw hu
  exact ⟨rfl, hbrand, hb, by rw [← hxv, ← hyw]; exact hworth⟩

theorem subtract_worth {b : Option β} (h : subtract lib x y b = some z) :
    z.brand = x.brand ∧ x.brand = y.brand ∧ z.worth + y.worth = x.worth := by
  simp only [subtract, Option.bind_eq_bind, Option.bind_eq_some_iff] at h
  obtain ⟨kind, hkind, ⟨v, w⟩, hvw, u, hu, h⟩ := h
  cases h
  obtain ⟨⟨hv, hxv⟩, hw, hyw⟩ := coerceLR_some hl hvw
  obtain ⟨-, hworth⟩ := (MathHelpers.helpers_sound hl kind).subtract hv hw hu
  exact ⟨rfl, (checkLRAndGetHelpers_some hkind).1, by rw [← hxv, ← hyw]; exact hworth⟩

theorem isGTE_worth {b : Option β} (h : isGTE lib x y b = some true) :
    x.brand = y.brand ∧ y.worth ≤ x.worth := by
  simp only [isGTE, Option.bind_eq_bind, Option.bind_eq_some_iff] at h
  obtain ⟨kind, hkind, ⟨v, w⟩, hvw, h⟩ := h
  obtain ⟨⟨hv, hxv⟩, hw, hyw⟩ := coerceLR_some hl hvw
  refine ⟨(checkLRAndGetHelpers_some hkind).1, ?_⟩
  rw [← hxv, ← hyw]
  exact ((MathHelpers.helpers_sound hl kind).isGTE_iff hv hw).mp (Option.some.inj h)

theorem isEqual_worth {b : Option β} (h : isEqual lib x y b = some true) :
    x.brand = y.brand ∧ x.worth = y.worth := by
  simp only [isEqual, Option.bind_eq_bind, Option.bind_eq_some_iff] at h
  obtain ⟨kind, hkind, ⟨v, w⟩, hvw, h⟩ := h
  obtain ⟨⟨hv, hxv⟩, hw, hyw⟩ := coerceLR_some hl hvw
  refine ⟨(checkLRAndGetHelpers_some hkind).1, ?_⟩
  rw [← hxv, ← hyw]
  exact ((MathHelpers.helpers_sound hl kind).isEqual_iff hv hw).mp (Option.some.inj h)

theorem isEmpty_worth {b : Option β} {r : Bool} (h : isEmpty lib x b = some r) :
    r = true ↔ x.worth = 0 := by
  simp only [isEmpty, Option.bind_eq_bind, Option.bind_eq_some_iff] at h
  obtain ⟨_, -, kind, -, v, hv, h⟩ := h
  cases h
  obtain ⟨hc, hw⟩ := (MathHelpers.helpers_sound hl kind).coerce hv
  rw [(MathHelpers.helpers_sound hl kind).isEmpty_iff hc, hw]
  rfl

omit [DecidableEq β] in
theorem makeEmptyFromAmount_worth (h : makeEmptyFromAmount lib x = some y) :
    y.brand = x.brand ∧ y.worth = 0 := by
  simp only [makeEmptyFromAmount, Option.bind_eq_bind, Option.bind_eq_some_iff] at h
  obtain ⟨kind, -, h⟩ := h
  cases h
  exact ⟨rfl, (makeEmpty_valid hl x.brand kind).2⟩

omit [DecidableEq β] in
theorem worth_le_one (hx : x.Valid lib brand kind) (hunique : kind.Unique) (c : Option κ) :
    x.worth c ≤ 1 := (MathHelpers.helpers_sound hl kind).worth_le_one hunique hx.coerced c

end AmountMath

end AgoricSdk.ERTP
