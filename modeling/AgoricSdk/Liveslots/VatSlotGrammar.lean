import AgoricSdk.SwingSet.Slots
import Mathlib.Data.Set.Basic
import Mathlib.Data.List.TakeWhile

/-!
The grammar of vat references. The comment above `parseVatSlot` documents four
forms; the parser itself slices the string and leaves the numbers to `BigInt`.
The first section states the documented forms, the second says exactly what the
parser reads, and the last one for which strings the two agree and a reference
has one name only.
-/

namespace AgoricSdk.Liveslots

open SwingSet

section Grammar

def allocchar (allocatedByVat : Bool) : Char :=
  if allocatedByVat then '+' else '-'

def durabilityChar (isDurable : Bool) : Char :=
  if isDurable then 'd' else 'v'

def IsDecimalInteger (s : JSString) : Prop :=
  s ≠ [] ∧ ∀ c ∈ s, c.isDigit = true

/-- The forms of the comment: `T-N`, `T+N`, `T+DN/I` and `T+DN/I:F`, with a
durability status for object exports only. -/
inductive VatSlotForm : JSString → Prop
  | plain (type : SlotType) (allocatedByVat : Bool) {N : JSString} (hN : IsDecimalInteger N) :
      VatSlotForm (type.char :: allocchar allocatedByVat :: N)
  | inst (isDurable : Bool) {N I : JSString} (hN : IsDecimalInteger N) (hI : IsDecimalInteger I) :
      VatSlotForm ('o' :: '+' :: durabilityChar isDurable :: (N ++ '/' :: I))
  | facet (isDurable : Bool) {N I F : JSString} (hN : IsDecimalInteger N)
      (hI : IsDecimalInteger I) (hF : IsDecimalInteger F) :
      VatSlotForm ('o' :: '+' :: durabilityChar isDurable :: (N ++ '/' :: (I ++ ':' :: F)))

def makeBaseRef (kindID id : Nat) (isDurable : Bool) : JSString :=
  'o' :: '+' :: durabilityChar isDurable :: (decimal kindID ++ '/' :: decimal id)

/-- The name that `makeVatSlot`, or `makeBaseRef` with the facet, gives to what a
string was parsed to. -/
def slotName (p : ParsedVatSlot) : JSString :=
  match p.subid, p.facet with
  | none, _ => makeVatSlot p.type p.allocatedByVat p.id
  | some subid, none => makeBaseRef p.id subid p.durable
  | some subid, some facet => makeBaseRef p.id subid p.durable ++ ':' :: decimal facet

/-- Two parses that denote the same thing: all but the `baseRef` agrees. -/
structure SameReference (p q : ParsedVatSlot) : Prop where
  type : p.type = q.type
  allocatedByVat : p.allocatedByVat = q.allocatedByVat
  virtual : p.virtual = q.virtual
  durable : p.durable = q.durable
  id : p.id = q.id
  subid : p.subid = q.subid
  facet : p.facet = q.facet

/-- Among the given strings the parser accepts the documented grammar, gives
different references to different strings, and can be undone. -/
structure CanonicalOn (S : Set JSString) : Prop where
  accepts : ∀ s ∈ S, (parseVatSlot s).isSome ↔ VatSlotForm s
  unique : ∀ s ∈ S, ∀ t ∈ S, ∀ p q, parseVatSlot s = some p → parseVatSlot t = some q →
    SameReference p q → s = t
  named : ∀ s ∈ S, ∀ p, parseVatSlot s = some p → slotName p = s

/-- `BigInt` reads the text as a number that is not written so. -/
def IsLooseNumeral (s : JSString) : Prop :=
  ∃ n, natBigInt s = some n ∧ s ≠ decimal n

/-- What may follow the base reference: nothing, or a colon and one more part. -/
def IsFacetPart (s : JSString) : Prop :=
  s = [] ∨ ∃ F, s = ':' :: F ∧ ':' ∉ F

/-- The spellings outside the grammar that the parser lets pass: a number that is
not plain decimal, a durability status without an instance, a facet without an
instance. -/
inductive LooseForm : JSString → Prop
  | number (type : SlotType) (allocatedByVat : Bool) {N : JSString} (hN : IsLooseNumeral N) :
      LooseForm (type.char :: allocchar allocatedByVat :: N)
  | facetOfPlain (type : SlotType) (allocatedByVat : Bool) {N F : JSString}
      (hN : (natBigInt N).isSome) (hF : ':' ∉ F) :
      LooseForm (type.char :: allocchar allocatedByVat :: (N ++ ':' :: F))
  | durability (type : SlotType) (allocatedByVat isDurable : Bool) {N part : JSString}
      (hN : (natBigInt N).isSome) (hpart : IsFacetPart part) :
      LooseForm (type.char :: allocchar allocatedByVat :: durabilityChar isDurable :: (N ++ part))
  | inst (isDurable : Bool) {N I : JSString} (hne : N ≠ []) (hN : (natBigInt N).isSome)
      (hI : (natBigInt I).isSome) (hloose : IsLooseNumeral N ∨ IsLooseNumeral I) :
      LooseForm ('o' :: '+' :: durabilityChar isDurable :: (N ++ '/' :: I))
  | facet (isDurable : Bool) {N I F : JSString} (hne : N ≠ []) (hN : (natBigInt N).isSome)
      (hI : (natBigInt I).isSome) (hF : (natBigInt F).isSome)
      (hloose : IsLooseNumeral N ∨ IsLooseNumeral I ∨ IsLooseNumeral F) :
      LooseForm ('o' :: '+' :: durabilityChar isDurable :: (N ++ '/' :: (I ++ ':' :: F)))

end Grammar

section Numerals

theorem readDigits_chars {base : Nat} {s : JSString} :
    ∀ {acc n : Nat}, readDigits base acc s = some n → ∀ c ∈ s, (digitValue c).isSome := by
  induction s with
  | nil =>
    intro acc n h c hc
    cases hc
  | cons d ds ih =>
    intro acc n h c hc
    unfold readDigits at h
    cases hd : digitValue d with
    | none =>
      rw [hd] at h
      cases h
    | some v =>
      rw [hd] at h
      dsimp only at h
      split at h
      · rcases List.mem_cons.mp hc with rfl | hmem
        · rw [hd]
          rfl
        · exact ih h c hmem
      · cases h

theorem readNumeral_chars {base n : Nat} {s : JSString} (h : readNumeral base s = some n) :
    ∀ c ∈ s, (digitValue c).isSome := by
  cases s with
  | nil => cases h
  | cons d ds => exact readDigits_chars h

/-- The characters that can stand in a text that `BigInt` reads. -/
def IsNumeralChar (c : Char) : Prop :=
  isStrWhiteSpace c = true ∨ (digitValue c).isSome = true ∨ c = '+' ∨ c = '-'

theorem mem_trimString {s : JSString} {c : Char} (hc : c ∈ s) :
    c ∈ trimString s ∨ isStrWhiteSpace c = true := by
  have hdrop : ∀ l : JSString, c ∈ l →
      c ∈ l.dropWhile isStrWhiteSpace ∨ isStrWhiteSpace c = true := by
    intro l hl
    rw [← List.takeWhile_append_dropWhile (p := isStrWhiteSpace) (l := l)] at hl
    rcases List.mem_append.mp hl with htake | hdrop
    · exact Or.inr (List.mem_takeWhile_imp htake)
    · exact Or.inl hdrop
  rcases hdrop s hc with h | h
  · rcases hdrop _ (List.mem_reverse.mpr h) with h' | h'
    · exact Or.inl (List.mem_reverse.mpr h')
    · exact Or.inr h'
  · exact Or.inr h

instance (c : Char) : Decidable (IsNumeralChar c) :=
  inferInstanceAs (Decidable (_ ∨ _))

theorem natBigInt_chars {s : JSString} {n : Nat} (h : natBigInt s = some n) :
    ∀ c ∈ s, IsNumeralChar c := by
  have hdigits : ∀ {base k : Nat} {ds : JSString} {c : Char},
      readNumeral base ds = some k → c ∈ ds → IsNumeralChar c :=
    fun hread hc => Or.inr (Or.inl (readNumeral_chars hread _ hc))
  have hprefix : ∀ {base k : Nat} {ds : JSString} {b c : Char}, readNumeral base ds = some k →
      IsNumeralChar b → c ∈ '0' :: b :: ds → IsNumeralChar c := by
    intro base k ds b c hread hb hc
    rcases List.mem_cons.mp hc with rfl | hc
    · exact Or.inr (Or.inl (by decide))
    · rcases List.mem_cons.mp hc with rfl | hc
      · exact hb
      · exact hdigits hread hc
  intro c hc
  rcases mem_trimString hc with htrim | hspace
  · unfold natBigInt at h
    split at h
    case h_1 heq =>
      rw [heq] at htrim
      cases htrim
    case h_8 heq =>
      rw [heq] at htrim
      rcases List.mem_cons.mp htrim with rfl | hmem
      · exact Or.inr (Or.inr (Or.inl rfl))
      · exact hdigits h hmem
    case h_9 ds heq =>
      rw [heq] at htrim
      rcases List.mem_cons.mp htrim with rfl | hmem
      · exact Or.inr (Or.inr (Or.inr rfl))
      · cases hread : readNumeral 10 ds with
        | none =>
          rw [hread] at h
          cases h
        | some k => exact hdigits hread hmem
    case h_10 => exact hdigits h htrim
    all_goals
      rename_i heq
      rw [heq] at htrim
      exact hprefix h (Or.inr (Or.inl (by decide))) htrim
  · exact Or.inl hspace

theorem colon_notMem {s : JSString} {n : Nat} (h : natBigInt s = some n) : ':' ∉ s := by
  intro hc
  have hchar := natBigInt_chars h _ hc
  revert hchar
  decide

theorem slash_notMem {s : JSString} {n : Nat} (h : natBigInt s = some n) : '/' ∉ s := by
  intro hc
  have hchar := natBigInt_chars h _ hc
  revert hchar
  decide

theorem natBigInt_durabilityChar (isDurable : Bool) (s : JSString) :
    natBigInt (durabilityChar isDurable :: s) = none := by
  have hspace : isStrWhiteSpace (durabilityChar isDurable) = false := by
    cases isDurable <;> decide
  have htrim : ∃ t, trimString (durabilityChar isDurable :: s) = durabilityChar isDurable :: t := by
    unfold trimString
    rw [List.dropWhile_cons_of_neg (by simp [hspace]), List.reverse_cons, List.dropWhile_append]
    split
    · exact ⟨[], by simp [List.dropWhile, hspace]⟩
    · exact ⟨(List.dropWhile isStrWhiteSpace s.reverse).reverse, by simp⟩
  obtain ⟨t, ht⟩ := htrim
  unfold natBigInt
  rw [ht]
  cases isDurable <;> rfl

end Numerals

section Parser

/-- What the parser reads, the numbers with the grammar of `BigInt`. -/
inductive Reads : JSString → ParsedVatSlot → Prop
  | plain (type : SlotType) (allocatedByVat : Bool) {N part : JSString} {id : Nat}
      (hN : natBigInt N = some id) (hpart : IsFacetPart part) :
      Reads (type.char :: allocchar allocatedByVat :: (N ++ part))
        ⟨type, allocatedByVat, false, false, id, none,
          type.char :: allocchar allocatedByVat :: N, none⟩
  | marked (type : SlotType) (allocatedByVat isDurable : Bool) {N part : JSString} {id : Nat}
      (hN : natBigInt N = some id) (hpart : IsFacetPart part) :
      Reads (type.char :: allocchar allocatedByVat :: durabilityChar isDurable :: (N ++ part))
        ⟨type, allocatedByVat, !isDurable, isDurable, id, none,
          type.char :: allocchar allocatedByVat :: durabilityChar isDurable :: N, none⟩
  | inst (isDurable : Bool) {N I : JSString} {id subid : Nat} (hne : N ≠ [])
      (hN : natBigInt N = some id) (hI : natBigInt I = some subid) :
      Reads ('o' :: '+' :: durabilityChar isDurable :: (N ++ '/' :: I))
        ⟨.object, true, !isDurable, isDurable, id, some subid,
          'o' :: '+' :: durabilityChar isDurable :: (N ++ '/' :: I), none⟩
  | facet (isDurable : Bool) {N I F : JSString} {id subid facet : Nat} (hne : N ≠ [])
      (hN : natBigInt N = some id) (hI : natBigInt I = some subid)
      (hF : natBigInt F = some facet) :
      Reads ('o' :: '+' :: durabilityChar isDurable :: (N ++ '/' :: (I ++ ':' :: F)))
        ⟨.object, true, !isDurable, isDurable, id, some subid,
          'o' :: '+' :: durabilityChar isDurable :: (N ++ '/' :: I), some facet⟩

theorem slotTypeOfChar_char (type : SlotType) : slotTypeOfChar type.char = some type := by
  cases type <;> rfl

theorem allocationOfChar_allocchar (allocatedByVat : Bool) :
    allocationOfChar (allocchar allocatedByVat) = some allocatedByVat := by
  cases allocatedByVat <;> rfl

theorem char_of_slotTypeOfChar {c : Char} {type : SlotType} (h : slotTypeOfChar c = some type) :
    c = type.char := by
  unfold slotTypeOfChar at h
  split at h <;> cases h <;> rfl

theorem allocchar_of_allocationOfChar {c : Char} {allocatedByVat : Bool}
    (h : allocationOfChar c = some allocatedByVat) : c = allocchar allocatedByVat := by
  unfold allocationOfChar at h
  split at h <;> cases h <;> rfl

theorem exists_facetPart {s : JSString}
    (h : (s.splitOn ':').length = 1 ∨ (s.splitOn ':').length = 2) :
    ∃ baseRef part, s = baseRef ++ part ∧ ':' ∉ baseRef ∧
      (part = [] ∧ s.splitOn ':' = [baseRef] ∨
        ∃ F, part = ':' :: F ∧ ':' ∉ F ∧ s.splitOn ':' = [baseRef, F]) := by
  by_cases hcolon : ':' ∈ s
  · obtain ⟨baseRef, F, rfl, hbase⟩ := List.eq_append_cons_of_mem hcolon
    have hsplit : (baseRef ++ ':' :: F).splitOn ':' = baseRef :: F.splitOn ':' := by
      rw [List.splitOn_append_cons_self, List.splitOn_eq_singleton hbase]
      rfl
    have hF : ':' ∉ F := by
      intro hmem
      obtain ⟨G, H, rfl, -⟩ := List.eq_append_cons_of_mem hmem
      have hG := List.length_pos_iff.mpr (List.splitOn_ne_nil ':' G)
      have hH := List.length_pos_iff.mpr (List.splitOn_ne_nil ':' H)
      rw [hsplit, List.splitOn_append_cons_self, List.length_cons, List.length_append] at h
      omega
    rw [List.splitOn_eq_singleton hF] at hsplit
    exact ⟨baseRef, ':' :: F, rfl, hbase, Or.inr ⟨F, rfl, hF, hsplit⟩⟩
  · exact ⟨s, [], (List.append_nil s).symm, hcolon, Or.inl ⟨rfl, List.splitOn_eq_singleton hcolon⟩⟩

theorem splitOn_facetPart {baseRef part : JSString} (hbase : ':' ∉ baseRef)
    (hpart : IsFacetPart part) :
    (baseRef ++ part).splitOn ':' = [baseRef] ∨ ∃ F, (baseRef ++ part).splitOn ':' = [baseRef, F] := by
  rcases hpart with rfl | ⟨F, rfl, hF⟩
  · rw [List.append_nil]
    exact Or.inl (List.splitOn_eq_singleton hbase)
  · rw [List.splitOn_append_cons_self, List.splitOn_eq_singleton hbase,
      List.splitOn_eq_singleton hF]
    exact Or.inr ⟨F, rfl⟩

theorem colon_notMem_head (type : SlotType) (allocatedByVat : Bool) {s : JSString}
    (h : ':' ∉ s) : ':' ∉ type.char :: allocchar allocatedByVat :: s := by
  simp only [List.mem_cons, not_or]
  exact ⟨by cases type <;> decide, by cases allocatedByVat <;> decide, h⟩

theorem colon_notMem_durability (isDurable : Bool) {s : JSString} (h : ':' ∉ s) :
    ':' ∉ durabilityChar isDurable :: s := by
  simp only [List.mem_cons, not_or]
  exact ⟨by cases isDurable <;> decide, h⟩

theorem colon_notMem_instance (isDurable : Bool) {N I : JSString} (hN : ':' ∉ N)
    (hI : ':' ∉ I) : ':' ∉ 'o' :: '+' :: durabilityChar isDurable :: (N ++ '/' :: I) := by
  apply colon_notMem_head .object true
  apply colon_notMem_durability
  rw [List.mem_append, List.mem_cons, not_or, not_or]
  exact ⟨hN, by decide, hI⟩

theorem parseVirtualMark_numeral {N : JSString} {id : Nat} (hN : natBigInt N = some id) :
    parseVirtualMark N = (false, false, N) := by
  unfold parseVirtualMark
  split
  · exact absurd ((natBigInt_durabilityChar true _).symm.trans hN) nofun
  · exact absurd ((natBigInt_durabilityChar false _).symm.trans hN) nofun
  · rfl

theorem parseVirtualMark_durabilityChar (isDurable : Bool) (s : JSString) :
    parseVirtualMark (durabilityChar isDurable :: s) = (!isDurable, isDurable, s) := by
  cases isDurable <;> rfl

theorem parseVirtualMark_cases (s : JSString) :
    (∃ isDurable t, s = durabilityChar isDurable :: t) ∨ parseVirtualMark s = (false, false, s) := by
  unfold parseVirtualMark
  split
  · exact Or.inl ⟨true, _, rfl⟩
  · exact Or.inl ⟨false, _, rfl⟩
  · exact Or.inr rfl

theorem idxOf_slash_numeral {N : JSString} {id : Nat} (hN : natBigInt N = some id) :
    N.idxOf '/' = N.length :=
  List.idxOf_eq_length (slash_notMem hN)

theorem idxOf_slash_append {N I : JSString} {id : Nat} (hN : natBigInt N = some id) :
    (N ++ '/' :: I).idxOf '/' = N.length := by
  rw [List.idxOf_append_of_notMem (slash_notMem hN), List.idxOf_cons_self, Nat.add_zero]

theorem parseVatSlot_of_reads {s : JSString} {p : ParsedVatSlot} (h : Reads s p) :
    parseVatSlot s = some p := by
  cases h with
  | plain type allocatedByVat hN hpart =>
    have hbase := colon_notMem_head type allocatedByVat (colon_notMem hN)
    unfold parseVatSlot
    rcases splitOn_facetPart hbase hpart with hsplit | ⟨F, hsplit⟩ <;>
    · rw [List.cons_append, List.cons_append] at hsplit
      simp [hsplit, slotTypeOfChar_char, allocationOfChar_allocchar, parseVirtualMark_numeral hN,
        idxOf_slash_numeral hN, hN]
  | marked type allocatedByVat isDurable hN hpart =>
    have hbase := colon_notMem_head type allocatedByVat
      (colon_notMem_durability isDurable (colon_notMem hN))
    unfold parseVatSlot
    rcases splitOn_facetPart hbase hpart with hsplit | ⟨F, hsplit⟩ <;>
    · rw [List.cons_append, List.cons_append, List.cons_append] at hsplit
      simp [hsplit, slotTypeOfChar_char, allocationOfChar_allocchar,
        parseVirtualMark_durabilityChar, idxOf_slash_numeral hN, hN]
  | @inst isDurable N I id subid hne hN hI =>
    have hbase := colon_notMem_instance isDurable (colon_notMem hN) (colon_notMem hI)
    have hsplit := List.splitOn_eq_singleton hbase
    have hpos : 0 < N.length := List.length_pos_iff.mpr hne
    unfold parseVatSlot
    simp [hsplit, slotTypeOfChar, allocationOfChar, parseVirtualMark_durabilityChar,
      idxOf_slash_append hN, hpos, hN, hI]
  | @facet isDurable N I F id subid facet hne hN hI hF =>
    have hbase := colon_notMem_instance isDurable (colon_notMem hN) (colon_notMem hI)
    have hsplit : ('o' :: '+' :: durabilityChar isDurable :: (N ++ '/' :: (I ++ ':' :: F))).splitOn
        ':' = ['o' :: '+' :: durabilityChar isDurable :: (N ++ '/' :: I), F] := by
      have hjoin := List.splitOn_append_cons_self (a := ':')
        ('o' :: '+' :: durabilityChar isDurable :: (N ++ '/' :: I)) F
      rw [List.splitOn_eq_singleton hbase, List.splitOn_eq_singleton (colon_notMem hF)] at hjoin
      simpa using hjoin
    have hpos : 0 < N.length := List.length_pos_iff.mpr hne
    unfold parseVatSlot
    simp [hsplit, slotTypeOfChar, allocationOfChar, parseVirtualMark_durabilityChar,
      idxOf_slash_append hN, hpos, hN, hI, hF]

theorem reads_of_parseVatSlot {s : JSString} {p : ParsedVatSlot} (h : parseVatSlot s = some p) :
    Reads s p := by
  unfold parseVatSlot at h
  dsimp only at h
  split at h
  case isFalse => cases h
  case isTrue hparts =>
  obtain ⟨baseRef, part, rfl, hbase, hpart⟩ := exists_facetPart hparts
  have hfacet : IsFacetPart part := by
    rcases hpart with ⟨rfl, -⟩ | ⟨F, rfl, hF, -⟩
    · exact Or.inl rfl
    · exact Or.inr ⟨F, rfl, hF⟩
  have hhead : ((baseRef ++ part).splitOn ':').headD [] = baseRef := by
    rcases hpart with ⟨-, hsplit⟩ | ⟨F, -, -, hsplit⟩ <;> rw [hsplit] <;> rfl
  rw [hhead] at h
  split at h
  case h_2 => cases h
  case h_1 typechar alloc suffix =>
  split at h
  case h_2 => cases h
  case h_1 type allocatedByVat htype halloc =>
  obtain rfl := char_of_slotTypeOfChar htype
  obtain rfl := allocchar_of_allocationOfChar halloc
  rcases parseVirtualMark_cases suffix with ⟨isDurable, suffix, rfl⟩ | hmark
  · rw [parseVirtualMark_durabilityChar] at h
    dsimp only at h
    split at h
    case isTrue hdelim =>
      split at h
      case isFalse => cases h
      case isTrue hexport =>
      obtain ⟨⟨rfl, rfl⟩, -⟩ := hexport
      obtain ⟨N, I, rfl, hslash⟩ :=
        List.eq_append_cons_of_mem (List.idxOf_lt_length_iff.mp hdelim.2)
      have hidx : (N ++ '/' :: I).idxOf '/' = N.length := by
        rw [List.idxOf_append_of_notMem hslash, List.idxOf_cons_self, Nat.add_zero]
      have hne : N ≠ [] := List.length_pos_iff.mp (hidx ▸ hdelim.1)
      rw [hidx, List.take_left, List.drop_append, List.drop_of_length_le (by omega),
        Nat.add_sub_cancel_left] at h
      split at h
      case h_2 => cases h
      case h_1 id subid hN hI =>
      rcases hpart with ⟨rfl, hsplit⟩ | ⟨F, rfl, -, hsplit⟩
      · rw [hsplit] at h
        cases h
        rw [List.append_nil]
        exact Reads.inst isDurable hne hN hI
      · rw [hsplit] at h
        obtain ⟨facet, hF, rfl⟩ := Option.map_eq_some_iff.mp h
        have hread := Reads.facet isDurable hne hN hI hF
        simpa [SlotType.char, allocchar] using hread
    case isFalse =>
      obtain ⟨id, hN, rfl⟩ := Option.map_eq_some_iff.mp h
      exact Reads.marked type allocatedByVat isDurable hN hfacet
  · rw [hmark] at h
    dsimp only at h
    split at h
    case isTrue => simp at h
    case isFalse =>
      obtain ⟨id, hN, rfl⟩ := Option.map_eq_some_iff.mp h
      exact Reads.plain type allocatedByVat hN hfacet

end Parser

section Canonical

variable {s : JSString} {p q : ParsedVatSlot}

theorem isDecimalInteger_decimal (n : Nat) : IsDecimalInteger (decimal n) :=
  ⟨Nat.toDigits_ne_nil, fun _ hc => decimal_isDigit hc⟩

theorem IsDecimalInteger.reads {N : JSString} (h : IsDecimalInteger N) :
    ∃ n, natBigInt N = some n :=
  ⟨_, natBigInt_digits h.1 h.2⟩

theorem VatSlotForm.reads (h : VatSlotForm s) : ∃ p, Reads s p := by
  cases h with
  | plain type allocatedByVat hN =>
    obtain ⟨id, hid⟩ := hN.reads
    have hread := Reads.plain type allocatedByVat hid (Or.inl rfl)
    rw [List.append_nil] at hread
    exact ⟨_, hread⟩
  | inst isDurable hN hI =>
    obtain ⟨id, hid⟩ := hN.reads
    obtain ⟨subid, hsubid⟩ := hI.reads
    exact ⟨_, Reads.inst isDurable hN.1 hid hsubid⟩
  | facet isDurable hN hI hF =>
    obtain ⟨id, hid⟩ := hN.reads
    obtain ⟨subid, hsubid⟩ := hI.reads
    obtain ⟨facet, hfacet⟩ := hF.reads
    exact ⟨_, Reads.facet isDurable hN.1 hid hsubid hfacet⟩

theorem Reads.slotName_form (h : Reads s p) : VatSlotForm (slotName p) := by
  cases h with
  | plain type allocatedByVat _ _ =>
    exact VatSlotForm.plain type allocatedByVat (isDecimalInteger_decimal _)
  | marked type allocatedByVat isDurable _ _ =>
    exact VatSlotForm.plain type allocatedByVat (isDecimalInteger_decimal _)
  | inst isDurable _ _ _ =>
    exact VatSlotForm.inst isDurable (isDecimalInteger_decimal _) (isDecimalInteger_decimal _)
  | @facet isDurable _ _ _ id subid facet _ _ _ _ =>
    have hform := VatSlotForm.facet isDurable (isDecimalInteger_decimal id)
      (isDecimalInteger_decimal subid) (isDecimalInteger_decimal facet)
    simpa [slotName, makeBaseRef] using hform

theorem Reads.named_or_loose (h : Reads s p) : slotName p = s ∨ LooseForm s := by
  cases h with
  | @plain type allocatedByVat N part id hN hpart =>
    rcases hpart with rfl | ⟨F, rfl, hF⟩
    · rw [List.append_nil]
      by_cases hdec : N = decimal id
      · rw [hdec]
        exact Or.inl rfl
      · exact Or.inr (LooseForm.number type allocatedByVat ⟨id, hN, hdec⟩)
    · exact Or.inr (LooseForm.facetOfPlain type allocatedByVat (by rw [hN]; rfl) hF)
  | marked type allocatedByVat isDurable hN hpart =>
    exact Or.inr (LooseForm.durability type allocatedByVat isDurable (by rw [hN]; rfl) hpart)
  | @inst isDurable N I id subid hne hN hI =>
    by_cases hdec : N = decimal id ∧ I = decimal subid
    · obtain ⟨rfl, rfl⟩ := hdec
      exact Or.inl rfl
    · right
      apply LooseForm.inst isDurable hne (by rw [hN]; rfl) (by rw [hI]; rfl)
      rcases not_and_or.mp hdec with h | h
      · exact Or.inl ⟨id, hN, h⟩
      · exact Or.inr ⟨subid, hI, h⟩
  | @facet isDurable N I F id subid facet hne hN hI hF =>
    by_cases hdec : N = decimal id ∧ I = decimal subid ∧ F = decimal facet
    · obtain ⟨rfl, rfl, rfl⟩ := hdec
      left
      simp [slotName, makeBaseRef]
    · right
      apply LooseForm.facet isDurable hne (by rw [hN]; rfl) (by rw [hI]; rfl) (by rw [hF]; rfl)
      rcases not_and_or.mp hdec with h | h
      · exact Or.inl ⟨id, hN, h⟩
      · rcases not_and_or.mp h with h | h
        · exact Or.inr (Or.inl ⟨subid, hI, h⟩)
        · exact Or.inr (Or.inr ⟨facet, hF, h⟩)

theorem LooseForm.misnamed (h : LooseForm s) : ∃ p, Reads s p ∧ slotName p ≠ s := by
  have hcolon : ∀ n, ':' ∉ decimal n := fun n => colon_notMem (natBigInt_decimal n)
  have hslash : ∀ n, '/' ∉ decimal n := fun n => slash_notMem (natBigInt_decimal n)
  cases h with
  | @number type allocatedByVat N hN =>
    obtain ⟨id, hid, hne⟩ := hN
    have hread := Reads.plain type allocatedByVat hid (Or.inl rfl)
    rw [List.append_nil] at hread
    refine ⟨_, hread, ?_⟩
    intro heq
    exact hne (List.cons.inj (List.cons.inj heq).2).2.symm
  | @facetOfPlain type allocatedByVat N F hN hF =>
    obtain ⟨id, hid⟩ := Option.isSome_iff_exists.mp hN
    refine ⟨_, Reads.plain type allocatedByVat hid (Or.inr ⟨F, rfl, hF⟩), ?_⟩
    intro heq
    apply hcolon id
    rw [show decimal id = N ++ ':' :: F from (List.cons.inj (List.cons.inj heq).2).2]
    exact List.mem_append_right _ List.mem_cons_self
  | @durability type allocatedByVat isDurable N part hN hpart =>
    obtain ⟨id, hid⟩ := Option.isSome_iff_exists.mp hN
    refine ⟨_, Reads.marked type allocatedByVat isDurable hid hpart, ?_⟩
    intro heq
    have hdec : decimal id = durabilityChar isDurable :: (N ++ part) :=
      (List.cons.inj (List.cons.inj heq).2).2
    have hnone := natBigInt_durabilityChar isDurable (N ++ part)
    rw [← hdec, natBigInt_decimal] at hnone
    cases hnone
  | @inst isDurable N I hne hN hI hloose =>
    obtain ⟨id, hid⟩ := Option.isSome_iff_exists.mp hN
    obtain ⟨subid, hsubid⟩ := Option.isSome_iff_exists.mp hI
    refine ⟨_, Reads.inst isDurable hne hid hsubid, ?_⟩
    intro heq
    have htail : decimal id ++ '/' :: decimal subid = N ++ '/' :: I :=
      (List.cons.inj (List.cons.inj (List.cons.inj heq).2).2).2
    obtain ⟨rfl, -, rfl⟩ :=
      (List.append_cons_inj_of_notMem (hslash id) (hslash subid)).mp htail
    rcases hloose with ⟨n, hn, hdec⟩ | ⟨n, hn, hdec⟩
    · exact hdec (congrArg decimal (Option.some.inj (hid.symm.trans hn)))
    · exact hdec (congrArg decimal (Option.some.inj (hsubid.symm.trans hn)))
  | @facet isDurable N I F hne hN hI hF hloose =>
    obtain ⟨id, hid⟩ := Option.isSome_iff_exists.mp hN
    obtain ⟨subid, hsubid⟩ := Option.isSome_iff_exists.mp hI
    obtain ⟨facet, hfacet⟩ := Option.isSome_iff_exists.mp hF
    refine ⟨_, Reads.facet isDurable hne hid hsubid hfacet, ?_⟩
    intro heq
    have htail : decimal id ++ '/' :: (decimal subid ++ ':' :: decimal facet) =
        N ++ '/' :: (I ++ ':' :: F) := by
      have h3 := (List.cons.inj (List.cons.inj (List.cons.inj heq).2).2).2
      simpa [slotName, makeBaseRef] using h3
    have hrest : '/' ∉ decimal subid ++ ':' :: decimal facet := by
      rw [List.mem_append, List.mem_cons, not_or, not_or]
      exact ⟨hslash subid, by decide, hslash facet⟩
    obtain ⟨rfl, -, hrest⟩ := (List.append_cons_inj_of_notMem (hslash id) hrest).mp htail
    obtain ⟨rfl, -, rfl⟩ :=
      (List.append_cons_inj_of_notMem (hcolon subid) (hcolon facet)).mp hrest
    rcases hloose with ⟨n, hn, hdec⟩ | ⟨n, hn, hdec⟩ | ⟨n, hn, hdec⟩
    · exact hdec (congrArg decimal (Option.some.inj (hid.symm.trans hn)))
    · exact hdec (congrArg decimal (Option.some.inj (hsubid.symm.trans hn)))
    · exact hdec (congrArg decimal (Option.some.inj (hfacet.symm.trans hn)))

theorem SameReference.slotName (h : SameReference p q) : slotName p = slotName q := by
  obtain ⟨htype, halloc, -, hdurable, hid, hsubid, hfacet⟩ := h
  unfold Liveslots.slotName
  rw [htype, halloc, hdurable, hid, hsubid, hfacet]

/-- The parser keeps to its grammar, with one name for each reference, on exactly
the sets of strings without a loose spelling. -/
theorem canonicalOn_iff (S : Set JSString) : CanonicalOn S ↔ ∀ s ∈ S, ¬ LooseForm s := by
  constructor
  · intro h s hs hloose
    obtain ⟨p, hread, hname⟩ := hloose.misnamed
    exact hname (h.named s hs p (parseVatSlot_of_reads hread))
  · intro h
    have hnamed : ∀ s ∈ S, ∀ p, parseVatSlot s = some p → slotName p = s := by
      intro s hs p hp
      exact (reads_of_parseVatSlot hp).named_or_loose.resolve_right (h s hs)
    constructor
    · intro s hs
      constructor
      · intro hsome
        obtain ⟨p, hp⟩ := Option.isSome_iff_exists.mp hsome
        rw [← hnamed s hs p hp]
        exact (reads_of_parseVatSlot hp).slotName_form
      · intro hform
        obtain ⟨p, hread⟩ := hform.reads
        rw [parseVatSlot_of_reads hread]
        rfl
    · intro s hs t ht p q hp hq hsame
      rw [← hnamed s hs p hp, ← hnamed t ht q hq]
      exact hsame.slotName
    · exact hnamed

/-- `o+` is no reference of the grammar, yet it passes for the object `o+0`. -/
theorem empty_number_accepted : parseVatSlot ['o', '+'] =
      some ⟨.object, true, false, false, 0, none, ['o', '+'], none⟩ ∧
    ¬ VatSlotForm ['o', '+'] ∧ ¬ CanonicalOn Set.univ := by
  have hform : ¬ VatSlotForm ['o', '+'] := by
    intro h
    generalize hs : ['o', '+'] = s at h
    cases h with
    | plain type allocatedByVat hN => exact hN.1 (List.cons.inj (List.cons.inj hs).2).2.symm
    | inst => cases hs
    | facet => cases hs
  have hparse : parseVatSlot ['o', '+'] =
      some ⟨.object, true, false, false, 0, none, ['o', '+'], none⟩ := by
    decide +kernel
  refine ⟨hparse, hform, ?_⟩
  intro hall
  apply hform
  rw [← hall.accepts _ (Set.mem_univ _), hparse]
  rfl

end Canonical

end AgoricSdk.Liveslots
