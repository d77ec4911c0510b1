import Mathlib.Data.List.Lex
import Mathlib.Tactic

/-!
The keys of key-value stores. A key is a string of UTF-16 code units, and keys
are ordered by their code points: a surrogate pair counts as the one code point
that it encodes, a surrogate without its partner as itself.
-/

namespace AgoricSdk.Storage

@[ext]
structure Key where
  units : List UInt16

def isHighSurrogate (u : UInt16) : Bool := 0xD800 ≤ u.toNat && u.toNat < 0xDC00

def isLowSurrogate (u : UInt16) : Bool := 0xDC00 ≤ u.toNat && u.toNat < 0xE000

/-- The code points that iterating over a string yields. -/
def codePoints : List UInt16 → List Nat
  | [] => []
  | [u] => [u.toNat]
  | u :: v :: units =>
    if isHighSurrogate u && isLowSurrogate v then
      (0x10000 + (u.toNat - 0xD800) * 0x400 + (v.toNat - 0xDC00)) :: codePoints units
    else u.toNat :: codePoints (v :: units)

/-- The code units of a code point. -/
def unitsOf (codePoint : Nat) : List UInt16 :=
  if codePoint < 0x10000 then [UInt16.ofNat codePoint]
  else
    let offset := codePoint - 0x10000
    [UInt16.ofNat (0xD800 + offset / 0x400), UInt16.ofNat (0xDC00 + offset % 0x400)]

theorem unitsOf_unit (u : UInt16) : unitsOf u.toNat = [u] := by
  have hlt := u.toNat_lt
  unfold unitsOf
  rw [if_pos (by omega), UInt16.ofNat_toNat]

theorem unitsOf_pair {u v : UInt16} (h : (isHighSurrogate u && isLowSurrogate v) = true) :
    unitsOf (0x10000 + (u.toNat - 0xD800) * 0x400 + (v.toNat - 0xDC00)) = [u, v] := by
  simp only [isHighSurrogate, isLowSurrogate, Bool.and_eq_true, decide_eq_true_eq] at h
  have hhigh : 0xD800 + ((u.toNat - 0xD800) * 0x400 + (v.toNat - 0xDC00)) / 0x400 = u.toNat := by
    omega
  have hlow : 0xDC00 + ((u.toNat - 0xD800) * 0x400 + (v.toNat - 0xDC00)) % 0x400 = v.toNat := by
    omega
  have hoffset : 0x10000 + (u.toNat - 0xD800) * 0x400 + (v.toNat - 0xDC00) - 0x10000 =
      (u.toNat - 0xD800) * 0x400 + (v.toNat - 0xDC00) := by
    omega
  unfold unitsOf
  rw [if_neg (by omega), hoffset]
  dsimp only
  rw [hhigh, hlow, UInt16.ofNat_toNat, UInt16.ofNat_toNat]

theorem flatMap_unitsOf_codePoints (units : List UInt16) :
    (codePoints units).flatMap unitsOf = units := by
  fun_induction codePoints units with
  | case1 => rfl
  | case2 u => rw [List.flatMap_cons, unitsOf_unit, List.flatMap_nil, List.append_nil]
  | case3 u v units hpair ih =>
    rw [List.flatMap_cons, unitsOf_pair hpair, ih]
    rfl
  | case4 u v units hsingle ih =>
    rw [List.flatMap_cons, unitsOf_unit, ih]
    rfl

def Key.codePoints (key : Key) : List Nat := Storage.codePoints key.units

theorem Key.codePoints_injective : Function.Injective Key.codePoints := by
  intro key key' h
  ext1
  rw [← flatMap_unitsOf_codePoints key.units, ← flatMap_unitsOf_codePoints key'.units]
  exact congrArg (List.flatMap unitsOf) h

instance : LinearOrder Key := LinearOrder.lift' Key.codePoints Key.codePoints_injective

def emptyKey : Key := ⟨[]⟩

/-- The loop over both iterators. -/
def compareIterators : List Nat → List Nat → Int
  | [], [] => 0
  | [], _ :: _ => -1
  | _ :: _, [] => 1
  | leftCodepoint :: left, rightCodepoint :: right =>
    if leftCodepoint < rightCodepoint then -1
    else if rightCodepoint < leftCodepoint then 1
    else compareIterators left right

def compareByCodePoints (left right : Key) : Int :=
  compareIterators left.codePoints right.codePoints

theorem nil_le (codePoints : List Nat) : [] ≤ codePoints := by
  cases codePoints with
  | nil => exact le_refl _
  | cons codePoint rest =>
    have hlt : [] < codePoint :: rest := List.Lex.nil
    exact hlt.le

theorem compareIterators_le_zero {left right : List Nat} :
    compareIterators left right ≤ 0 ↔ left ≤ right := by
  fun_induction compareIterators left right with
  | case1 => exact iff_of_true (le_refl _) (le_refl _)
  | case2 r right => exact iff_of_true (by decide) (nil_le (r :: right))
  | case3 l left =>
    have hgt : [] < l :: left := List.Lex.nil
    exact iff_of_false (by decide) (not_le_of_gt hgt)
  | case4 l left r right hlt =>
    have hle : l :: left < r :: right := List.Lex.rel hlt
    exact iff_of_true (by decide) hle.le
  | case5 l left r right hnot hlt =>
    have hgt : r :: right < l :: left := List.Lex.rel hlt
    exact iff_of_false (by decide) (not_le_of_gt hgt)
  | case6 l left r right hnot hnot' ih =>
    have heq : l = r := le_antisymm (le_of_not_gt hnot') (le_of_not_gt hnot)
    subst heq
    rw [ih, ← not_lt, ← not_lt, List.cons_lt_cons_iff]
    simp

theorem compareByCodePoints_le_zero {left right : Key} :
    compareByCodePoints left right ≤ 0 ↔ left ≤ right := compareIterators_le_zero

theorem emptyKey_le (key : Key) : emptyKey ≤ key := by
  show emptyKey.codePoints ≤ key.codePoints
  exact nil_le key.codePoints

end AgoricSdk.Storage
