import AgoricSdk.ERTP.AmountMath
import AgoricSdk.Lib.CommutingFold

/-!
What the functions on amounts depend on: the brand, the kind and the units of
their arguments. Amounts that agree in these are alike, and the functions do not
tell them apart. Adding and subtracting several amounts therefore comes to the
same in any order, though the values may be written differently.
-/

namespace AgoricSdk.ERTP

open CommutingFold

variable {β κ : Type} [DecidableEq β] [DecidableEq κ] {lib : StoreLib κ}
  {x y z : Amount β κ} {kind : AssetKind}

namespace Amount

/-- The arithmetic of the kind accepts the amount. -/
def OfKind (lib : StoreLib κ) (kind : AssetKind) (x : Amount β κ) : Prop :=
  assertValueGetAssetKind lib x.value = some kind ∧
    ∃ v, (helpers lib kind).doCoerce x.value = some v

/-- The amounts are of one brand and one kind. -/
structure Together (lib : StoreLib κ) (kind : AssetKind) (x y : Amount β κ) : Prop where
  brand : x.brand = y.brand
  left : x.OfKind lib kind
  right : y.OfKind lib kind

/-- Amounts of one brand, kind and worth. What no kind accepts is alike to itself. -/
def Alike (lib : StoreLib κ) (x y : Amount β κ) : Prop :=
  x = y ∨ ∃ kind, Together lib kind x y ∧ x.worth = y.worth

omit [DecidableEq β] [DecidableEq κ] in
theorem OfKind.unique {kind' : AssetKind} (h : x.OfKind lib kind) (h' : x.OfKind lib kind') :
    kind = kind' := Option.some.inj (h.1.symm.trans h'.1)

omit [DecidableEq β] [DecidableEq κ] in
theorem OfKind.of_coerced (h : (helpers lib kind).Coerced x.value) : x.OfKind lib kind :=
  ⟨assertValueGetAssetKind_of_coerced h, x.value, h⟩

omit [DecidableEq β] in
theorem OfKind.worth_le_one (hl : lib.Lawful) (h : x.OfKind lib kind) (hu : kind.Unique)
    (c : Option κ) : x.worth c ≤ 1 := by
  obtain ⟨-, v, hv⟩ := h
  obtain ⟨hcoerced, hworth⟩ := (MathHelpers.helpers_sound hl kind).coerce hv
  have hone := (MathHelpers.helpers_sound hl kind).worth_le_one hu hcoerced c
  rw [hworth] at hone
  exact hone

namespace Alike

omit [DecidableEq β] in
theorem brand (h : Alike lib x y) : x.brand = y.brand := by
  rcases h with rfl | ⟨kind, h, -⟩
  · rfl
  · exact h.brand

omit [DecidableEq β] in
theorem worth (h : Alike lib x y) : x.worth = y.worth := by
  rcases h with rfl | ⟨kind, -, h⟩
  · rfl
  · exact h

omit [DecidableEq β] in
theorem symm (h : Alike lib x y) : Alike lib y x := by
  rcases h with rfl | ⟨kind, h, hworth⟩
  · exact .inl rfl
  · exact .inr ⟨kind, ⟨h.brand.symm, h.right, h.left⟩, hworth.symm⟩

omit [DecidableEq β] in
theorem ofKind (h : Alike lib x y) (hx : x.OfKind lib kind) : y.OfKind lib kind := by
  rcases h with rfl | ⟨kind', h, -⟩
  · exact hx
  · rw [hx.unique h.left]
    exact h.right

omit [DecidableEq β] in
theorem of_together (h : Together lib kind x y) (hworth : x.worth = y.worth) : Alike lib x y :=
  .inr ⟨kind, h, hworth⟩

omit [DecidableEq β] in
theorem trans (h : Alike lib x y) (h' : Alike lib y z) : Alike lib x z := by
  rcases h with rfl | ⟨kind, h, hworth⟩
  · exact h'
  · exact .of_together ⟨h.brand.trans h'.brand, h.left, h'.ofKind h.right⟩
      (hworth.trans h'.worth)

omit [DecidableEq β] in
theorem equivalence : Equivalence (Alike lib : Amount β κ → Amount β κ → Prop) :=
  ⟨fun _ => .inl rfl, symm, trans⟩

omit [DecidableEq β] in
/-- What two amounts have together, amounts alike to them have. -/
theorem together {x' y' : Amount β κ} (hx : Alike lib x x') (hy : Alike lib y y')
    (h : Together lib kind x y) : Together lib kind x' y' :=
  ⟨hx.brand.symm.trans (h.brand.trans hy.brand), hx.ofKind h.left, hy.ofKind h.right⟩

end Alike

end Amount

/-! ## The functions on amounts -/

namespace AmountMath

open Amount

omit [DecidableEq κ] in
theorem checkLRAndGetHelpers_eq_some_iff :
    checkLRAndGetHelpers lib x y none = some kind ↔ x.brand = y.brand ∧
      assertValueGetAssetKind lib x.value = some kind ∧
        assertValueGetAssetKind lib y.value = some kind := by
  simp only [checkLRAndGetHelpers, optionalBrandCheck, Option.bind_eq_bind, Option.bind_some]
  constructor
  · intro h
    split at h
    case isFalse => cases h
    case isTrue hbrand =>
      obtain ⟨left, hleft, h⟩ := Option.bind_eq_some_iff.mp h
      obtain ⟨right, hright, h⟩ := Option.bind_eq_some_iff.mp h
      split at h
      case isFalse => cases h
      case isTrue hsame =>
        cases h
        exact ⟨hbrand, hleft, hsame ▸ hright⟩
  · rintro ⟨hbrand, hleft, hright⟩
    rw [if_pos hbrand, hleft, hright, Option.bind_some, Option.bind_some, if_pos rfl]

theorem helpers_of_together (hl : lib.Lawful) (h : Together lib kind x y) : ∃ v w,
    checkLRAndGetHelpers lib x y none = some kind ∧
    coerceLR (helpers lib kind) x y = some (v, w) ∧
    ((helpers lib kind).Coerced v ∧ v.worth = x.worth) ∧
    (helpers lib kind).Coerced w ∧ w.worth = y.worth := by
  obtain ⟨hx, v, hv⟩ := h.left
  obtain ⟨hy, w, hw⟩ := h.right
  have hcoerce : coerceLR (helpers lib kind) x y = some (v, w) := by
    simp [coerceLR, hv, hw]
  exact ⟨v, w, checkLRAndGetHelpers_eq_some_iff.mpr ⟨h.brand, hx, hy⟩, hcoerce,
    coerceLR_some hl hcoerce⟩

omit [DecidableEq κ] in
theorem together_of_helpers {v w : Value κ}
    (hcheck : checkLRAndGetHelpers lib x y none = some kind)
    (hcoerce : coerceLR (helpers lib kind) x y = some (v, w)) : Together lib kind x y := by
  obtain ⟨hbrand, hx, hy⟩ := checkLRAndGetHelpers_eq_some_iff.mp hcheck
  simp only [coerceLR, Option.bind_eq_bind, Option.bind_eq_some_iff] at hcoerce
  obtain ⟨v', hv, w', hw, -⟩ := hcoerce
  exact ⟨hbrand, ⟨hx, v', hv⟩, ⟨hy, w', hw⟩⟩

/-- The amount has the units of the two others together. -/
structure IsSum (lib : StoreLib κ) (kind : AssetKind) (x y z : Amount β κ) : Prop where
  together : Together lib kind x y
  brand : z.brand = x.brand
  ofKind : z.OfKind lib kind
  worth : z.worth = x.worth + y.worth

section Lawful

variable (hl : lib.Lawful)

include hl

theorem isSum_of_add (h : add lib x y none = some z) : ∃ kind, IsSum lib kind x y z := by
  simp only [add, Option.bind_eq_bind, Option.bind_eq_some_iff] at h
  obtain ⟨kind, hkind, ⟨v, w⟩, hvw, u, hu, h⟩ := h
  cases h
  obtain ⟨⟨hv, hxv⟩, hw, hyw⟩ := coerceLR_some hl hvw
  obtain ⟨hcoerced, hworth⟩ := (MathHelpers.helpers_sound hl kind).add hv hw hu
  refine ⟨kind, together_of_helpers hkind hvw, rfl, .of_coerced hcoerced, ?_⟩
  rw [← hxv, ← hyw]
  exact hworth

theorem exists_add (h : Together lib kind x y)
    (hfit : kind.Unique → ∀ c, x.worth c + y.worth c ≤ 1) :
    ∃ z, add lib x y none = some z ∧ IsSum lib kind x y z := by
  obtain ⟨v, w, hcheck, hcoerce, ⟨hv, hxv⟩, hw, hyw⟩ := helpers_of_together hl h
  have hfit' : kind.Unique → ∀ c, v.worth c + w.worth c ≤ 1 := by
    rw [hxv, hyw]
    exact hfit
  obtain ⟨u, hu⟩ := Option.isSome_iff_exists.mp
    ((MathHelpers.helpers_sound hl kind).add_isSome hv hw hfit')
  have hadd : add lib x y none = some { brand := x.brand, value := u } := by
    simp [add, hcheck, hcoerce, hu]
  obtain ⟨kind', hsum⟩ := isSum_of_add hl hadd
  obtain rfl := hsum.together.left.unique h.left
  exact ⟨_, hadd, hsum⟩

omit [DecidableEq β] in
/-- Unique assets only add up when they are distinct. -/
theorem IsSum.fits (h : IsSum lib kind x y z) (hu : kind.Unique) (c : Option κ) :
    x.worth c + y.worth c ≤ 1 := by
  have hone := h.ofKind.worth_le_one hl hu c
  rw [h.worth] at hone
  exact hone

theorem isGTE_eq_some_iff {r : Bool} :
    isGTE lib x y none = some r ↔ (∃ kind, Together lib kind x y) ∧
      (r = true ↔ y.worth ≤ x.worth) := by
  constructor
  · intro h
    simp only [isGTE, Option.bind_eq_bind, Option.bind_eq_some_iff] at h
    obtain ⟨kind, hkind, ⟨v, w⟩, hvw, h⟩ := h
    cases h
    obtain ⟨⟨hv, hxv⟩, hw, hyw⟩ := coerceLR_some hl hvw
    refine ⟨⟨kind, together_of_helpers hkind hvw⟩, ?_⟩
    rw [← hxv, ← hyw]
    exact (MathHelpers.helpers_sound hl kind).isGTE_iff hv hw
  · rintro ⟨⟨kind, h⟩, hr⟩
    obtain ⟨v, w, hcheck, hcoerce, ⟨hv, hxv⟩, hw, hyw⟩ := helpers_of_together hl h
    have hgte := (MathHelpers.helpers_sound hl kind).isGTE_iff hv hw
    rw [hxv, hyw, ← hr, Bool.eq_iff_iff.symm] at hgte
    simp [isGTE, hcheck, hcoerce, hgte]

theorem isEqual_eq_some_iff {r : Bool} :
    isEqual lib x y none = some r ↔ (∃ kind, Together lib kind x y) ∧
      (r = true ↔ x.worth = y.worth) := by
  constructor
  · intro h
    simp only [isEqual, Option.bind_eq_bind, Option.bind_eq_some_iff] at h
    obtain ⟨kind, hkind, ⟨v, w⟩, hvw, h⟩ := h
    cases h
    obtain ⟨⟨hv, hxv⟩, hw, hyw⟩ := coerceLR_some hl hvw
    refine ⟨⟨kind, together_of_helpers hkind hvw⟩, ?_⟩
    rw [← hxv, ← hyw]
    exact (MathHelpers.helpers_sound hl kind).isEqual_iff hv hw
  · rintro ⟨⟨kind, h⟩, hr⟩
    obtain ⟨v, w, hcheck, hcoerce, ⟨hv, hxv⟩, hw, hyw⟩ := helpers_of_together hl h
    have hequal := (MathHelpers.helpers_sound hl kind).isEqual_iff hv hw
    rw [hxv, hyw, ← hr, Bool.eq_iff_iff.symm] at hequal
    simp [isEqual, hcheck, hcoerce, hequal]

theorem isEmpty_eq_some_iff {r : Bool} :
    isEmpty lib x none = some r ↔ (∃ kind, x.OfKind lib kind) ∧ (r = true ↔ x.worth = 0) := by
  constructor
  · intro h
    have hr := isEmpty_worth hl h
    simp only [isEmpty, optionalBrandCheck, Option.bind_eq_bind, Option.bind_some,
      Option.bind_eq_some_iff] at h
    obtain ⟨kind, hkind, v, hv, -⟩ := h
    exact ⟨⟨kind, hkind, v, hv⟩, hr⟩
  · rintro ⟨⟨kind, hkind, v, hv⟩, hr⟩
    obtain ⟨hcoerced, hworth⟩ := (MathHelpers.helpers_sound hl kind).coerce hv
    have hempty := (MathHelpers.helpers_sound hl kind).isEmpty_iff hcoerced
    rw [hworth] at hempty
    have hsame : (helpers lib kind).doIsEmpty v = r := Bool.eq_iff_iff.mpr (hempty.trans hr.symm)
    simp [isEmpty, optionalBrandCheck, hkind, hv, hsame]

theorem isDifference_of_subtract (h : subtract lib x y none = some z) :
    ∃ kind, IsSum lib kind z y x := by
  simp only [subtract, Option.bind_eq_bind, Option.bind_eq_some_iff] at h
  obtain ⟨kind, hkind, ⟨v, w⟩, hvw, u, hu, h⟩ := h
  cases h
  obtain ⟨⟨hv, hxv⟩, hw, hyw⟩ := coerceLR_some hl hvw
  obtain ⟨hcoerced, hworth⟩ := (MathHelpers.helpers_sound hl kind).subtract hv hw hu
  have htogether := together_of_helpers hkind hvw
  refine ⟨kind, ⟨htogether.brand, .of_coerced hcoerced, htogether.right⟩, rfl, htogether.left, ?_⟩
  rw [← hxv, ← hyw, ← hworth]
  rfl

theorem exists_subtract (h : Together lib kind x y) (hle : y.worth ≤ x.worth) :
    ∃ z, subtract lib x y none = some z ∧ IsSum lib kind z y x := by
  obtain ⟨v, w, hcheck, hcoerce, ⟨hv, hxv⟩, hw, hyw⟩ := helpers_of_together hl h
  rw [← hxv, ← hyw] at hle
  obtain ⟨u, hu⟩ := Option.isSome_iff_exists.mp
    ((MathHelpers.helpers_sound hl kind).subtract_isSome hv hw hle)
  have hsubtract : subtract lib x y none = some { brand := x.brand, value := u } := by
    simp [subtract, hcheck, hcoerce, hu]
  obtain ⟨kind', hsum⟩ := isDifference_of_subtract hl hsubtract
  obtain rfl := hsum.ofKind.unique h.left
  exact ⟨_, hsubtract, hsum⟩

/-! ## The order of additions and subtractions -/

theorem add_congr {x' y' : Amount β κ} (hx : Alike lib x x') (hy : Alike lib y y')
    (h : add lib x y none = some z) : ∃ z', add lib x' y' none = some z' ∧ Alike lib z z' := by
  obtain ⟨kind, hsum⟩ := isSum_of_add hl h
  obtain ⟨z', hz', hsum'⟩ := exists_add hl (hx.together hy hsum.together) fun hu c => by
    rw [← hx.worth, ← hy.worth]
    exact hsum.fits hl hu c
  refine ⟨z', hz', .of_together ⟨?_, hsum.ofKind, hsum'.ofKind⟩ ?_⟩
  · rw [hsum.brand, hsum'.brand, hx.brand]
  · rw [hsum.worth, hsum'.worth, hx.worth, hy.worth]

theorem add_comm_alike (h : add lib x y none = some z) :
    ∃ z', add lib y x none = some z' ∧ Alike lib z z' := by
  obtain ⟨kind, hsum⟩ := isSum_of_add hl h
  have htogether : Together lib kind y x :=
    ⟨hsum.together.brand.symm, hsum.together.right, hsum.together.left⟩
  obtain ⟨z', hz', hsum'⟩ := exists_add hl htogether fun hu c => by
    have := hsum.fits hl hu c
    omega
  refine ⟨z', hz', .of_together ⟨?_, hsum.ofKind, hsum'.ofKind⟩ ?_⟩
  · rw [hsum.brand, hsum'.brand, hsum.together.brand]
  · rw [hsum.worth, hsum'.worth, add_comm]

theorem add_right_comm_alike {w t u : Amount β κ} (ht : add lib w x none = some t)
    (hu : add lib t y none = some u) :
    ∃ t' u', add lib w y none = some t' ∧ add lib t' x none = some u' ∧ Alike lib u u' := by
  obtain ⟨kind, hsum⟩ := isSum_of_add hl ht
  obtain ⟨kind', hall⟩ := isSum_of_add hl hu
  obtain rfl := hsum.ofKind.unique hall.together.left
  have hfits : kind.Unique → ∀ c, w.worth c + x.worth c + y.worth c ≤ 1 := by
    intro hunique c
    have hone := hall.fits hl hunique c
    rw [hsum.worth] at hone
    exact hone
  have hbrand : w.brand = y.brand := hsum.brand.symm.trans hall.together.brand
  obtain ⟨t', ht', hsum'⟩ := exists_add hl ⟨hbrand, hsum.together.left, hall.together.right⟩
    fun hunique c => by
      have := hfits hunique c
      omega
  obtain ⟨u', hu', hall'⟩ := exists_add hl
    ⟨hsum'.brand.trans hsum.together.brand, hsum'.ofKind, hsum.together.right⟩ fun hunique c => by
      have := hfits hunique c
      rw [hsum'.worth, Pi.add_apply]
      omega
  refine ⟨t', u', ht', hu', .of_together ⟨?_, hall.ofKind, hall'.ofKind⟩ ?_⟩
  · rw [hall.brand, hall'.brand, hsum.brand, hsum'.brand]
  · rw [hall.worth, hall'.worth, hsum.worth, hsum'.worth, add_right_comm]

theorem subtract_congr {x' y' : Amount β κ} (hx : Alike lib x x') (hy : Alike lib y y')
    (h : subtract lib x y none = some z) :
    ∃ z', subtract lib x' y' none = some z' ∧ Alike lib z z' := by
  obtain ⟨kind, hsum⟩ := isDifference_of_subtract hl h
  have htogether : Together lib kind x y :=
    ⟨hsum.brand.trans hsum.together.brand, hsum.ofKind, hsum.together.right⟩
  obtain ⟨z', hz', hsum'⟩ := exists_subtract hl (hx.together hy htogether) (by
    rw [← hx.worth, ← hy.worth, hsum.worth]
    exact fun c => Nat.le_add_left ..)
  refine ⟨z', hz', .of_together ⟨?_, hsum.together.left, hsum'.together.left⟩ ?_⟩
  · rw [← hsum.brand, ← hsum'.brand, hx.brand]
  · refine add_right_cancel (b := y.worth) ?_
    rw [← hsum.worth, hy.worth, ← hsum'.worth, hx.worth]

theorem subtract_right_comm_alike {w t u : Amount β κ} (ht : subtract lib w x none = some t)
    (hu : subtract lib t y none = some u) :
    ∃ t' u', subtract lib w y none = some t' ∧ subtract lib t' x none = some u' ∧
      Alike lib u u' := by
  obtain ⟨kind, hsum⟩ := isDifference_of_subtract hl ht
  obtain ⟨kind', hall⟩ := isDifference_of_subtract hl hu
  obtain rfl := hsum.together.left.unique hall.ofKind
  have hworth : w.worth = u.worth + y.worth + x.worth := by rw [hsum.worth, hall.worth]
  have hbrand : w.brand = y.brand :=
    hsum.brand.trans (hall.brand.trans hall.together.brand)
  obtain ⟨t', ht', hsum'⟩ := exists_subtract hl ⟨hbrand, hsum.ofKind, hall.together.right⟩ (by
    rw [hworth]
    intro c
    simp only [Pi.add_apply]
    omega)
  have hrest : t'.worth = u.worth + x.worth := by
    refine add_right_cancel (b := y.worth) ?_
    rw [← hsum'.worth, hworth, add_right_comm]
  have hbrand' : t'.brand = x.brand :=
    hsum'.brand.symm.trans (hsum.brand.trans hsum.together.brand)
  obtain ⟨u', hu', hall'⟩ := exists_subtract hl
    ⟨hbrand', hsum'.together.left, hsum.together.right⟩ (by
      rw [hrest]
      exact fun c => Nat.le_add_left ..)
  refine ⟨t', u', ht', hu', .of_together ⟨?_, hall.together.left, hall'.together.left⟩ ?_⟩
  · rw [← hall.brand, ← hsum.brand, ← hall'.brand, ← hsum'.brand]
  · refine add_right_cancel (b := x.worth) ?_
    rw [← hall'.worth, hrest]

theorem isGTE_congr {x' y' : Amount β κ} (hx : Alike lib x x') (hy : Alike lib y y') :
    isGTE lib x y none = isGTE lib x' y' none := by
  apply Option.ext
  intro r
  rw [isGTE_eq_some_iff hl, isGTE_eq_some_iff hl, hx.worth, hy.worth]
  have hiff : (∃ kind, Together lib kind x y) ↔ ∃ kind, Together lib kind x' y' :=
    exists_congr fun _ => ⟨hx.together hy, hx.symm.together hy.symm⟩
  rw [hiff]

theorem isEqual_congr {x' y' : Amount β κ} (hx : Alike lib x x') (hy : Alike lib y y') :
    isEqual lib x y none = isEqual lib x' y' none := by
  apply Option.ext
  intro r
  rw [isEqual_eq_some_iff hl, isEqual_eq_some_iff hl, hx.worth, hy.worth]
  have hiff : (∃ kind, Together lib kind x y) ↔ ∃ kind, Together lib kind x' y' :=
    exists_congr fun _ => ⟨hx.together hy, hx.symm.together hy.symm⟩
  rw [hiff]

theorem isEmpty_congr {x' : Amount β κ} (hx : Alike lib x x') :
    isEmpty lib x none = isEmpty lib x' none := by
  apply Option.ext
  intro r
  rw [isEmpty_eq_some_iff hl, isEmpty_eq_some_iff hl, hx.worth]
  have hiff : (∃ kind, x.OfKind lib kind) ↔ ∃ kind, x'.OfKind lib kind :=
    exists_congr fun _ => ⟨hx.ofKind, hx.symm.ofKind⟩
  rw [hiff]

omit hl in
omit [DecidableEq β] in
theorem makeEmptyFromAmount_congr {x' : Amount β κ} (hx : Alike lib x x') :
    makeEmptyFromAmount lib x = makeEmptyFromAmount lib x' := by
  rcases hx with rfl | ⟨kind, h, -⟩
  · rfl
  · simp only [makeEmptyFromAmount, h.left.1, h.right.1, h.brand]

end Lawful

end AmountMath

end AgoricSdk.ERTP
