import Mathlib.Data.Nat.Digits.Defs
import Mathlib.Data.List.Sort
import Mathlib.Tactic

/-!
Names of kernel and vat references. A kernel slot (`koNN`, `kdNN`, `kpNN`) is
made by the kernel only, so it is kept parsed. A vat slot is a string that a
vat chooses, so it stays a string and is parsed by `parseVatSlot` exactly as
the source does, with the grammar of `BigInt` for its numbers. Strings are
lists of characters.
-/

namespace AgoricSdk.SwingSet

abbrev JSString := List Char

instance : LawfulBEq JSString := inferInstance

inductive SlotType where
  | object
  | device
  | promise
deriving DecidableEq

/-- A kernel slot: `ko` object, `kd` device node or `kp` promise. -/
structure KSlot where
  type : SlotType
  id : Nat
deriving DecidableEq

abbrev KSlot.object (id : Nat) : KSlot := ⟨.object, id⟩

abbrev KSlot.device (id : Nat) : KSlot := ⟨.device, id⟩

abbrev KSlot.promise (id : Nat) : KSlot := ⟨.promise, id⟩

abbrev VatID := Nat

abbrev DeviceID := Nat

abbrev MeterID := Nat

section BigIntText

/-- The white space that `BigInt` trims. -/
def isStrWhiteSpace (c : Char) : Bool :=
  c.toNat ∈ [0x9, 0xA, 0xB, 0xC, 0xD, 0x20, 0xA0, 0x1680, 0x2028, 0x2029, 0x202F, 0x205F,
    0x3000, 0xFEFF] || (0x2000 ≤ c.toNat && c.toNat ≤ 0x200A)

def trimString (s : JSString) : JSString :=
  ((s.dropWhile isStrWhiteSpace).reverse.dropWhile isStrWhiteSpace).reverse

def digitValue (c : Char) : Option Nat :=
  if '0' ≤ c ∧ c ≤ '9' then some (c.toNat - '0'.toNat)
  else if 'a' ≤ c ∧ c ≤ 'z' then some (c.toNat - 'a'.toNat + 10)
  else if 'A' ≤ c ∧ c ≤ 'Z' then some (c.toNat - 'A'.toNat + 10)
  else none

/-- Read digits of the base after those already read as `acc`. -/
def readDigits (base : Nat) : Nat → JSString → Option Nat
  | acc, [] => some acc
  | acc, c :: cs =>
    match digitValue c with
    | some d => if d < base then readDigits base (acc * base + d) cs else none
    | none => none

def readNumeral (base : Nat) : JSString → Option Nat
  | [] => none
  | cs => readDigits base 0 cs

/-- `Nat(BigInt(s))`: `none` where either of the two throws. -/
def natBigInt (s : JSString) : Option Nat :=
  match trimString s with
  | [] => some 0
  | '0' :: 'x' :: ds => readNumeral 16 ds
  | '0' :: 'X' :: ds => readNumeral 16 ds
  | '0' :: 'o' :: ds => readNumeral 8 ds
  | '0' :: 'O' :: ds => readNumeral 8 ds
  | '0' :: 'b' :: ds => readNumeral 2 ds
  | '0' :: 'B' :: ds => readNumeral 2 ds
  | '+' :: ds => readNumeral 10 ds
  | '-' :: ds =>
    match readNumeral 10 ds with
    | some 0 => some 0
    | _ => none
  | ds => readNumeral 10 ds

end BigIntText

/-- The decimal digits of a number, as in a template string. -/
def decimal (n : Nat) : JSString := Nat.toDigits 10 n

section Decimal

theorem decimal_isDigit {n : Nat} {c : Char} (h : c ∈ decimal n) : c.isDigit = true :=
  Nat.isDigit_of_mem_toDigits (by decide) (by decide) h

theorem decimal_inj {m n : Nat} (h : decimal m = decimal n) : m = n := by
  have hm := Nat.ofDigitChars_ten_toDigits (n := m)
  rwa [show Nat.toDigits 10 m = Nat.toDigits 10 n from h, Nat.ofDigitChars_ten_toDigits, eq_comm]
    at hm

private theorem isDigit_bounds {c : Char} (h : c.isDigit = true) :
    48 ≤ c.toNat ∧ c.toNat ≤ 57 := by
  simpa [Char.isDigit, UInt32.le_iff_toNat_le] using h

private theorem readDigits_digits (cs : List Char) (acc : Nat)
    (h : ∀ c ∈ cs, c.isDigit = true) :
    readDigits 10 acc cs = some (Nat.ofDigitChars 10 cs acc) := by
  induction cs generalizing acc with
  | nil => rfl
  | cons c cs ih =>
    have hc := isDigit_bounds (h c (by simp))
    have hd : digitValue c = some (c.toNat - 48) := by
      have h0 : '0' ≤ c := by simpa [Char.le_def, UInt32.le_iff_toNat_le] using hc.1
      have h9 : c ≤ '9' := by simpa [Char.le_def, UInt32.le_iff_toNat_le] using hc.2
      simp [digitValue, h0, h9]
    have hlt : c.toNat - 48 < 10 := by omega
    rw [readDigits, hd]
    simp only [hlt, if_true]
    rw [ih _ fun d hd => h d (List.mem_cons_of_mem _ hd), Nat.ofDigitChars_cons]
    rw [Nat.mul_comm]
    rfl

theorem isStrWhiteSpace_digit {c : Char} (h : c.isDigit = true) : isStrWhiteSpace c = false := by
  have := isDigit_bounds h
  simp only [isStrWhiteSpace, List.mem_cons, List.not_mem_nil, or_false,
    Bool.or_eq_false_iff, decide_eq_false_iff_not, Bool.and_eq_false_iff]
  omega

private theorem trimString_digits (cs : List Char) (h : ∀ c ∈ cs, c.isDigit = true) :
    trimString cs = cs := by
  have hs : ∀ c ∈ cs, isStrWhiteSpace c = false := fun c hc => isStrWhiteSpace_digit (h c hc)
  have hdrop : ∀ l : List Char, (∀ c ∈ l, isStrWhiteSpace c = false) →
      l.dropWhile isStrWhiteSpace = l := by
    intro l hl
    cases l with
    | nil => rfl
    | cons c l => simp [List.dropWhile, hl c (by simp)]
  unfold trimString
  rw [hdrop cs hs, hdrop cs.reverse fun c hc => hs c (List.mem_reverse.mp hc), List.reverse_reverse]

theorem natBigInt_digits {cs : JSString} (hne : cs ≠ []) (hd : ∀ c ∈ cs, c.isDigit = true) :
    natBigInt cs = some (Nat.ofDigitChars 10 cs 0) := by
  have hread : readDigits 10 0 cs = some (Nat.ofDigitChars 10 cs 0) := readDigits_digits _ _ hd
  unfold natBigInt
  rw [trimString_digits _ hd]
  have hx : ∀ c ds, cs = '0' :: c :: ds → c.isDigit = true := fun c ds h => hd c (by rw [h]; simp)
  have hh : ∀ c ds, cs = c :: ds → c.isDigit = true := fun c ds h => hd c (by rw [h]; simp)
  split
  case h_1 h => exact absurd rfl hne
  case h_2 h => exact absurd (hx _ _ rfl) (by decide)
  case h_3 h => exact absurd (hx _ _ rfl) (by decide)
  case h_4 h => exact absurd (hx _ _ rfl) (by decide)
  case h_5 h => exact absurd (hx _ _ rfl) (by decide)
  case h_6 h => exact absurd (hx _ _ rfl) (by decide)
  case h_7 h => exact absurd (hx _ _ rfl) (by decide)
  case h_8 h => exact absurd (hh _ _ rfl) (by decide)
  case h_9 h => exact absurd (hh _ _ rfl) (by decide)
  case h_10 =>
    cases cs with
    | nil => exact absurd rfl hne
    | cons c cs => exact hread

theorem natBigInt_decimal (n : Nat) : natBigInt (decimal n) = some n := by
  have hne : decimal n ≠ [] := Nat.toDigits_ne_nil
  rw [natBigInt_digits hne fun c hc => decimal_isDigit hc]
  exact congrArg some Nat.ofDigitChars_ten_toDigits

end Decimal

section VatSlots

structure ParsedVatSlot where
  type : SlotType
  allocatedByVat : Bool
  virtual : Bool
  durable : Bool
  id : Nat
  subid : Option Nat
  baseRef : JSString
  facet : Option Nat
deriving DecidableEq

def slotTypeOfChar : Char → Option SlotType
  | 'o' => some .object
  | 'd' => some .device
  | 'p' => some .promise
  | _ => none

def allocationOfChar : Char → Option Bool
  | '+' => some true
  | '-' => some false
  | _ => none

/-- The durable and virtual marks, and what follows them. -/
def parseVirtualMark : JSString → Bool × Bool × JSString
  | 'd' :: cs => (false, true, cs)
  | 'v' :: cs => (true, false, cs)
  | cs => (false, false, cs)

/-- `none` where the source throws. -/
def parseVatSlot (vref : JSString) : Option ParsedVatSlot :=
  let parts := vref.splitOn ':'
  let baseRef := parts.headD []
  let facetStr := parts[1]?
  if parts.length = 1 ∨ parts.length = 2 then
    match baseRef with
    | typechar :: allocchar :: suffix =>
      match slotTypeOfChar typechar, allocationOfChar allocchar with
      | some type, some allocatedByVat =>
        let (virtual, durable, idSuffix) := parseVirtualMark suffix
        let delim := idSuffix.idxOf '/'
        if 0 < delim ∧ delim < idSuffix.length then
          if (type = .object ∧ allocatedByVat = true) ∧ (virtual = true ∨ durable = true) then
            match natBigInt (idSuffix.take delim), natBigInt (idSuffix.drop (delim + 1)) with
            | some id, some subid =>
              match facetStr with
              | some f =>
                (natBigInt f).map fun facet =>
                  ⟨type, allocatedByVat, virtual, durable, id, some subid, baseRef, some facet⟩
              | none =>
                some ⟨type, allocatedByVat, virtual, durable, id, some subid, baseRef, none⟩
            | _, _ => none
          else none
        else
          (natBigInt idSuffix).map fun id =>
            ⟨type, allocatedByVat, virtual, durable, id, none, baseRef, none⟩
      | _, _ => none
    | _ => none
  else none

def SlotType.char : SlotType → Char
  | .object => 'o'
  | .device => 'd'
  | .promise => 'p'

def makeVatSlot (type : SlotType) (allocatedByVat : Bool) (id : Nat) : JSString :=
  type.char :: (if allocatedByVat then '+' else '-') :: decimal id

theorem makeVatSlot_inj {t t' : SlotType} {a a' : Bool} {n n' : Nat}
    (h : makeVatSlot t a n = makeVatSlot t' a' n') : t = t' ∧ a = a' ∧ n = n' := by
  simp only [makeVatSlot, List.cons.injEq] at h
  obtain ⟨ht, ha, hn⟩ := h
  refine ⟨?_, ?_, decimal_inj hn⟩
  · cases t <;> cases t' <;> first | rfl | exact absurd ht (by decide)
  · cases a <;> cases a' <;> first | rfl | exact absurd ha (by decide)

theorem parseVatSlot_makeVatSlot (t : SlotType) (a : Bool) (n : Nat) :
    parseVatSlot (makeVatSlot t a n) =
      some ⟨t, a, false, false, n, none, makeVatSlot t a n, none⟩ := by
  have hd : ∀ c ∈ decimal n, c.isDigit = true := fun c hc => decimal_isDigit hc
  have hcolon : ':' ∉ makeVatSlot t a n := by
    simp only [makeVatSlot, List.mem_cons, not_or]
    refine ⟨by cases t <;> decide, by cases a <;> decide, fun h => absurd (hd _ h) (by decide)⟩
  have hslash : (decimal n).idxOf '/' = (decimal n).length :=
    List.idxOf_eq_length fun h => absurd (hd _ h) (by decide)
  have hmark : parseVirtualMark (decimal n) = (false, false, decimal n) := by
    unfold parseVirtualMark
    split
    case h_1 h => exact absurd (hd 'd' (by rw [h]; simp)) (by decide)
    case h_2 h => exact absurd (hd 'v' (by rw [h]; simp)) (by decide)
    case h_3 => rfl
  have hparts : (makeVatSlot t a n).splitOn ':' = [makeVatSlot t a n] :=
    List.splitOn_eq_singleton hcolon
  have htype : slotTypeOfChar t.char = some t := by cases t <;> rfl
  have halloc : allocationOfChar (if a then '+' else '-') = some a := by cases a <;> rfl
  unfold parseVatSlot
  rw [hparts]
  simp [makeVatSlot, htype, halloc, hmark, hslash, natBigInt_decimal]

end VatSlots

end AgoricSdk.SwingSet
