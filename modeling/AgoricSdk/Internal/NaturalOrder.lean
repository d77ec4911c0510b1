import AgoricSdk.Internal.NaturalSort
import AgoricSdk.Lib.OrderedText

/-!
How far the comparison of a natural sort is an order. It is antisymmetric and tells different
strings apart, and compares runs of digits as numbers. It is transitive but for one shape of
three strings, two of which are compared by their texts before the digits and each with the
third by text and digits.
-/

namespace AgoricSdk.NaturalSort

open OrderedText Timer Timer.Number

section Numbers

theorem sign_ofRat {q : ℚ} (h : q = 0 ∨ 1 ≤ |q|) :
    sign (ofRat q) = compare q 0 ∧ (ofRat q = .finite 0 ↔ q = 0) := by
  rcases h with rfl | hone
  · rw [ofRat_zero]
    exact ⟨rfl, fun _ => rfl, fun _ => rfl⟩
  · have hround : 1 ≤ binary64.round |q| := by
      have hle := BinaryFormat.natCast_le_round (F := binary64) (q := |q|) (n := 1)
        (by linarith) (by decide) (by exact_mod_cast hone)
      exact_mod_cast hle
    have hq : q ≠ 0 := by
      rintro rfl
      rw [abs_zero] at hone
      linarith
    unfold ofRat
    dsimp only
    rcases lt_or_gt_of_ne hq with hneg | hpos
    · rw [compare_lt_iff_lt.mpr hneg]
      simp only [hneg, if_true, decide_true]
      split
      · exact ⟨rfl, nofun, fun hzero => absurd hzero hq⟩
      · refine ⟨compare_lt_iff_lt.mpr (by linarith), fun heq => ?_, fun hzero => absurd hzero hq⟩
        have hzero := Number.finite.inj heq
        linarith
    · rw [compare_gt_iff_gt.mpr hpos]
      simp only [not_lt_of_gt hpos, if_false, decide_false]
      split
      · exact ⟨rfl, nofun, fun hzero => absurd hzero hq⟩
      · refine ⟨compare_gt_iff_gt.mpr (by linarith), fun heq => ?_, fun hzero => absurd hzero hq⟩
        have hzero := Number.finite.inj heq
        linarith

theorem compare_sub (a b : ℚ) : compare (a - b) 0 = compare a b := by
  rcases lt_trichotomy a b with hlt | rfl | hgt
  · rw [compare_lt_iff_lt.mpr hlt, compare_lt_iff_lt.mpr (sub_neg.mpr hlt)]
  · rw [sub_self, compare_eq_iff_eq.mpr rfl, compare_eq_iff_eq.mpr rfl]
  · rw [compare_gt_iff_gt.mpr hgt, compare_gt_iff_gt.mpr (sub_pos.mpr hgt)]

theorem compare_natCast (a b : ℕ) : compare (a : ℚ) b = compare a b := by
  rcases lt_trichotomy a b with hlt | rfl | hgt
  · rw [compare_lt_iff_lt.mpr hlt, compare_lt_iff_lt.mpr (Nat.cast_lt.mpr hlt)]
  · rw [compare_eq_iff_eq.mpr rfl, compare_eq_iff_eq.mpr rfl]
  · rw [compare_gt_iff_gt.mpr hgt, compare_gt_iff_gt.mpr (Nat.cast_lt.mpr hgt)]

theorem round_natCast_mono {a b : ℕ} (h : a ≤ b) : binary64.round a ≤ binary64.round b := by
  rcases Nat.eq_zero_or_pos a with rfl | hpos
  · rw [Nat.cast_zero, BinaryFormat.round_zero]
    exact BinaryFormat.round_nonneg _
  · exact BinaryFormat.round_mono (Nat.cast_pos.mpr hpos) (Nat.cast_le.mpr h)

theorem ofBigInt_natCast_cases (n : ℕ) :
    ofBigInt n = .infinity false ∨ ofBigInt n = .finite (binary64.round n) := by
  have hnot : ¬ ((n : ℤ) : ℚ) < 0 := by
    push_cast
    exact not_lt.mpr (Nat.cast_nonneg n)
  unfold ofBigInt ofRat
  dsimp only
  rw [decide_eq_false hnot, if_neg hnot, abs_of_nonneg (not_lt.mp hnot), Int.cast_natCast]
  split
  · exact .inl rfl
  · exact .inr rfl

theorem compareNats_eq (a b : Text) : compareNats a b =
    (compare (digitsValue a) (digitsValue b)).then (compare a.length b.length) := by
  have hresolved : sign (if a = b then Number.finite 0
      else if ofBigInt ((digitsValue a : ℤ) - digitsValue b) = .finite 0
        then .finite ((a.length : ℚ) - b.length)
        else ofBigInt ((digitsValue a : ℤ) - digitsValue b)) =
      (compare (digitsValue a) (digitsValue b)).then (compare a.length b.length) := by
    by_cases heq : a = b
    · rw [if_pos heq, heq, compare_eq_iff_eq.mpr rfl, compare_eq_iff_eq.mpr rfl]
      exact compare_eq_iff_eq.mpr rfl
    · rw [if_neg heq]
      have hcast : (((digitsValue a : ℤ) - digitsValue b : ℤ) : ℚ) =
          (digitsValue a : ℚ) - digitsValue b := by
        push_cast
        rfl
      have hsign := sign_ofRat (q := (digitsValue a : ℚ) - digitsValue b) (by
        by_cases hzero : (digitsValue a : ℤ) - digitsValue b = 0
        · left
          rw [← hcast, hzero, Int.cast_zero]
        · right
          rw [← hcast]
          exact_mod_cast Int.one_le_abs hzero)
      unfold ofBigInt
      rw [hcast]
      obtain ⟨hsign, hzero⟩ := hsign
      rw [compare_sub, compare_natCast] at hsign
      by_cases hvalue : (digitsValue a : ℚ) - digitsValue b = 0
      · have hsame : digitsValue a = digitsValue b := by
          exact_mod_cast sub_eq_zero.mp hvalue
        rw [if_pos (hzero.mpr hvalue), hsame, compare_eq_iff_eq.mpr rfl]
        change compare _ _ = _
        rw [compare_sub, compare_natCast]
        rfl
      · rw [if_neg fun h => hvalue (hzero.mp h), hsign]
        rcases lt_trichotomy (digitsValue a) (digitsValue b) with hlt | hsame | hgt
        · rw [compare_lt_iff_lt.mpr hlt]
          rfl
        · rw [hsame, sub_self] at hvalue
          exact absurd rfl hvalue
        · rw [compare_gt_iff_gt.mpr hgt]
          rfl
  unfold compareNats
  dsimp only
  rcases ofBigInt_natCast_cases (digitsValue a) with ha | ha
  · rcases ofBigInt_natCast_cases (digitsValue b) with hb | hb
    · rw [ha, hb]
      exact hresolved
    · rw [ha, hb]
      exact hresolved
  rcases ofBigInt_natCast_cases (digitsValue b) with hb | hb
  · rw [ha, hb]
    exact hresolved
  -- Both numbers are finite, and so may their difference be.
  obtain ⟨m, hm⟩ := BinaryFormat.round_natCast_isNat (F := binary64) (digitsValue a)
  obtain ⟨n, hn⟩ := BinaryFormat.round_natCast_isNat (F := binary64) (digitsValue b)
  have hsub : (Number.finite m).sub (.finite n) = ofRat ((m : ℚ) - n) := rfl
  rw [ha, hb, hm, hn, hsub]
  have hsign := sign_ofRat (q := (m : ℚ) - n) (by
    by_cases hzero : (m : ℤ) - n = 0
    · left
      exact_mod_cast hzero
    · right
      exact_mod_cast Int.one_le_abs hzero)
  cases hdiff : ofRat ((m : ℚ) - n) with
  | nan => exact hresolved
  | infinity negative => exact hresolved
  | finite q =>
    dsimp only
    by_cases hq : q = 0
    · rw [if_pos hq]
      exact hresolved
    · rw [if_neg hq]
      rw [hdiff, compare_sub, compare_natCast] at hsign
      rw [hsign.1]
      have hmono : ∀ c d : ℕ, c ≤ d → binary64.round c ≤ binary64.round d :=
        fun c d => round_natCast_mono
      rcases lt_trichotomy m n with hlt | heq | hgt
      · have hvalues : digitsValue a < digitsValue b := by
          by_contra hge
          have hle := hmono _ _ (not_lt.mp hge)
          rw [hm, hn, Nat.cast_le] at hle
          omega
        rw [compare_lt_iff_lt.mpr hlt, compare_lt_iff_lt.mpr hvalues]
        rfl
      · rw [heq, sub_self, Number.finite.injEq] at hsign
        exact absurd (hsign.2.mpr rfl) hq
      · have hvalues : digitsValue b < digitsValue a := by
          by_contra hge
          have hle := hmono _ _ (not_lt.mp hge)
          rw [hm, hn, Nat.cast_le] at hle
          omega
        rw [compare_gt_iff_gt.mpr hgt, compare_gt_iff_gt.mpr hvalues]
        rfl

end Numbers

section Heads

theorem compareStrings_lt {a b : Text} : compareStrings a b = .lt ↔ a < b := by
  unfold compareStrings compareOfLessAndEq
  split_ifs with hlt heq
  · exact ⟨fun _ => hlt, fun _ => rfl⟩
  · exact ⟨nofun, fun h => absurd h hlt⟩
  · exact ⟨nofun, fun h => absurd h hlt⟩

theorem compareStrings_eq {a b : Text} : compareStrings a b = .eq ↔ a = b := by
  unfold compareStrings compareOfLessAndEq
  split_ifs with hlt heq
  · exact ⟨nofun, fun h => absurd hlt (h ▸ lt_irrefl a)⟩
  · exact ⟨fun _ => heq, fun _ => rfl⟩
  · exact ⟨nofun, fun h => absurd h heq⟩

theorem compareStrings_swap (a b : Text) : compareStrings a b = (compareStrings b a).swap := by
  rcases lt_trichotomy a b with hlt | rfl | hgt
  · unfold compareStrings compareOfLessAndEq
    rw [if_pos hlt, if_neg hlt.not_gt, if_neg hlt.ne']
    rfl
  · rw [compareStrings_eq.mpr rfl]
    rfl
  · rw [compareStrings_lt.mpr hgt]
    unfold compareStrings compareOfLessAndEq
    rw [if_neg hgt.not_gt, if_neg hgt.ne']
    rfl

theorem compareNats_swap (a b : Text) : compareNats a b = (compareNats b a).swap := by
  rw [compareNats_eq, compareNats_eq, Ordering.swap_then, Nat.compare_swap, Nat.compare_swap]

/-- A text and the digits after it, in the order in which they are compared. -/
def headKey (text digits : Text) : Text ×ₗ ℕ ×ₗ ℕ :=
  toLex (text, toLex (digitsValue digits, digits.length))

theorem compareHeads_lt {a b aDigits bDigits : Text} :
    (compareStrings a b).then (compareNats aDigits bDigits) = .lt ↔
      headKey a aDigits < headKey b bDigits := by
  unfold headKey
  rw [compareNats_eq, Ordering.then_eq_lt, Ordering.then_eq_lt, compareStrings_lt,
    compareStrings_eq, Nat.compare_eq_lt, Nat.compare_eq_eq, Nat.compare_eq_lt,
    Prod.Lex.toLex_lt_toLex, Prod.Lex.toLex_lt_toLex]

theorem compareHeads_eq {a b aDigits bDigits : Text} :
    (compareStrings a b).then (compareNats aDigits bDigits) = .eq ↔
      headKey a aDigits = headKey b bDigits := by
  unfold headKey
  rw [compareNats_eq, Ordering.then_eq_eq, Ordering.then_eq_eq, compareStrings_eq,
    Nat.compare_eq_eq, Nat.compare_eq_eq, toLex_inj, Prod.mk.injEq, toLex_inj, Prod.mk.injEq]

theorem compareParts_run_lt {text digits text' digits' : Text} {rest rest' : Parts} :
    compareParts (.run text digits rest) (.run text' digits' rest') = .lt ↔
      headKey text digits < headKey text' digits' ∨
        (headKey text digits = headKey text' digits' ∧ compareParts rest rest' = .lt) := by
  rw [compareParts, Ordering.then_eq_lt, compareHeads_lt, compareHeads_eq]

theorem compareParts_run_suffix {text digits last : Text} {rest : Parts} :
    compareParts (.run text digits rest) (.suffix last) = .lt ↔ text ++ digits < last :=
  compareStrings_lt

theorem compareParts_suffix_run {last text digits : Text} {rest : Parts} :
    compareParts (.suffix last) (.run text digits rest) = .lt ↔ last < text ++ digits :=
  compareStrings_lt

theorem compareParts_suffix {last last' : Text} :
    compareParts (.suffix last) (.suffix last') = .lt ↔ last < last' :=
  compareStrings_lt

theorem digitsValue_inj {digits digits' : Text} (h : ∀ c ∈ digits, isDigit c = true)
    (h' : ∀ c ∈ digits', isDigit c = true) (hlength : digits.length = digits'.length)
    (hvalue : digitsValue digits = digitsValue digits') : digits = digits' := by
  have hdigit : ∀ {ds : Text}, (∀ c ∈ ds, isDigit c = true) →
      ∀ x ∈ ds.reverse.map (fun c => c.val - 48), x < 10 := by
    intro ds hds x hx
    obtain ⟨c, hc, rfl⟩ := List.mem_map.mp hx
    have hc := hds c (List.mem_reverse.mp hc)
    unfold isDigit at hc
    rw [Bool.and_eq_true, decide_eq_true_iff, decide_eq_true_iff, Fin.le_def, Fin.le_def] at hc
    have hle : c.val ≤ 57 := hc.2
    omega
  have hmap : digits.reverse.map (fun c => c.val - 48) =
      digits'.reverse.map fun c => c.val - 48 := by
    apply Nat.ofDigits_inj_of_len_eq (by decide : 1 < 10) _ (hdigit h) (hdigit h') hvalue
    rw [List.length_map, List.length_map, List.length_reverse, List.length_reverse, hlength]
  rw [List.map_reverse, List.map_reverse, List.reverse_inj] at hmap
  apply List.ext_getElem hlength
  intro i hi hi'
  have hget := congrArg (fun xs => xs[i]?) hmap
  simp only [List.getElem?_map, List.getElem?_eq_getElem hi, List.getElem?_eq_getElem hi',
    Option.map_some, Option.some_inj] at hget
  have hc := h _ (List.getElem_mem hi)
  have hc' := h' _ (List.getElem_mem hi')
  unfold isDigit at hc hc'
  rw [Bool.and_eq_true, decide_eq_true_iff, decide_eq_true_iff, Fin.le_def, Fin.le_def] at hc hc'
  have hge : 48 ≤ digits[i].val := hc.1
  have hge' : 48 ≤ digits'[i].val := hc'.1
  exact Fin.ext (by omega)

end Heads

section Shapes

/-- Texts have no digits and runs have nothing else. -/
def Parts.WellFormed : Parts → Prop
  | .suffix text => ∀ c ∈ text, isDigit c = false
  | .run text digits rest => (∀ c ∈ text, isDigit c = false) ∧ digits ≠ [] ∧
    (∀ c ∈ digits, isDigit c = true) ∧ rest.WellFormed

def Parts.join : Parts → Text
  | .suffix text => text
  | .run text digits rest => text ++ digits ++ rest.join

theorem splitDigits_wellFormed (s : Text) : (splitDigits s).WellFormed := by
  induction s with
  | nil => exact nofun
  | cons c cs ih =>
    unfold splitDigits
    by_cases hc : isDigit c = true
    · rw [if_pos hc]
      split
      case h_1 digits rest heq =>
        rw [heq] at ih
        obtain ⟨-, -, hdigits, hrest⟩ := ih
        exact ⟨nofun, List.cons_ne_nil _ _, List.forall_mem_cons.mpr ⟨hc, hdigits⟩, hrest⟩
      case h_2 =>
        refine ⟨nofun, List.cons_ne_nil _ _, ?_, ih⟩
        exact List.forall_mem_cons.mpr ⟨hc, nofun⟩
    · have hc := Bool.eq_false_iff.mpr hc
      rw [if_neg (by rw [hc]; exact Bool.false_ne_true)]
      cases hsplit : splitDigits cs with
      | suffix text =>
        rw [hsplit] at ih
        exact List.forall_mem_cons.mpr ⟨hc, ih⟩
      | run text digits rest =>
        rw [hsplit] at ih
        exact ⟨List.forall_mem_cons.mpr ⟨hc, ih.1⟩, ih.2⟩

theorem join_splitDigits (s : Text) : (splitDigits s).join = s := by
  induction s with
  | nil => rfl
  | cons c cs ih =>
    unfold splitDigits
    split
    · split
      case h_1 digits rest heq =>
        rw [heq] at ih
        rw [← ih]
        rfl
      case h_2 =>
        unfold Parts.join
        rw [ih]
        rfl
    · cases hsplit : splitDigits cs with
      | suffix text =>
        rw [hsplit] at ih
        rw [← ih]
        rfl
      | run text digits rest =>
        rw [hsplit] at ih
        rw [← ih]
        rfl

theorem splitDigits_injective : Function.Injective splitDigits := by
  intro s t h
  rw [← join_splitDigits s, h, join_splitDigits]

theorem append_digits_ne {text digits other : Text} (hdigits : digits ≠ [])
    (h : ∀ c ∈ digits, isDigit c = true) (hother : ∀ c ∈ other, isDigit c = false) :
    text ++ digits ≠ other := by
  rintro rfl
  obtain ⟨c, hc⟩ := List.exists_mem_of_ne_nil _ hdigits
  cases (h c hc).symm.trans (hother c (List.mem_append_right _ hc))

theorem compareParts_swap (p q : Parts) : compareParts p q = (compareParts q p).swap := by
  induction p generalizing q with
  | suffix text =>
    cases q with
    | suffix text' => exact compareStrings_swap _ _
    | run text' digits' rest' => exact compareStrings_swap _ _
  | run text digits rest ih =>
    cases q with
    | suffix text' => exact compareStrings_swap _ _
    | run text' digits' rest' =>
      rw [compareParts, compareParts, Ordering.swap_then, Ordering.swap_then, ← ih,
        ← compareStrings_swap, ← compareNats_swap]

theorem headKey_inj {text digits text' digits' : Text} (h : ∀ c ∈ digits, isDigit c = true)
    (h' : ∀ c ∈ digits', isDigit c = true)
    (hkey : headKey text digits = headKey text' digits') : text = text' ∧ digits = digits' := by
  obtain ⟨htext, hnumber⟩ := Prod.ext_iff.mp (toLex_inj.mp hkey)
  obtain ⟨hvalue, hlength⟩ := Prod.ext_iff.mp (toLex_inj.mp hnumber)
  exact ⟨htext, digitsValue_inj h h' hlength hvalue⟩

theorem compareParts_eq {p q : Parts} (hp : p.WellFormed) (hq : q.WellFormed) :
    compareParts p q = .eq ↔ p = q := by
  induction p generalizing q with
  | suffix text =>
    cases q with
    | suffix text' => exact compareStrings_eq.trans (iff_of_eq (Parts.suffix.injEq _ _).symm)
    | run text' digits' rest' =>
      refine compareStrings_eq.trans ⟨fun heq => ?_, nofun⟩
      exact absurd heq.symm (append_digits_ne hq.2.1 hq.2.2.1 hp)
  | run text digits rest ih =>
    cases q with
    | suffix text' =>
      refine compareStrings_eq.trans ⟨fun heq => ?_, nofun⟩
      exact absurd heq (append_digits_ne hp.2.1 hp.2.2.1 hq)
    | run text' digits' rest' =>
      rw [compareParts, Ordering.then_eq_eq, compareHeads_eq, ih hp.2.2.2 hq.2.2.2,
        Parts.run.injEq]
      constructor
      · rintro ⟨hkey, hrest⟩
        obtain ⟨htext, hdigits⟩ := headKey_inj hp.2.2.1 hq.2.2.1 hkey
        exact ⟨htext, hdigits, hrest⟩
      · rintro ⟨rfl, rfl, rfl⟩
        exact ⟨rfl, rfl⟩

end Shapes

section Tangles

/-- Three strings that agree in their leading parts up to a text, where the first goes on with
digits. The second and the third go on with a character below the digits; the second has digits
later and the third has none, and what is left of the third comes after the text and digits of
the second. -/
inductive Tangled : Parts → Parts → Parts → Prop where
  | here {text digits more moreDigits last : Text} {rest moreRest : Parts} (hmore : more ≠ [])
      (hbelow : ∀ c ∈ last.head?, c < 48) (hafter : more ++ moreDigits < last) :
      Tangled (.run text digits rest) (.run (text ++ more) moreDigits moreRest)
        (.suffix (text ++ last))
  | later {text digits : Text} {p q r : Parts} (h : Tangled p q r) :
      Tangled (.run text digits p) (.run text digits q) (.run text digits r)

theorem below_digits {text digits : Text} (htext : ∀ c ∈ text, isDigit c = false)
    (hne : digits ≠ []) (hdigits : ∀ c ∈ digits, isDigit c = true) :
    text < digits ↔ ∀ c ∈ text.head?, c < 48 := by
  cases digits with
  | nil => exact absurd rfl hne
  | cons d ds =>
    cases text with
    | nil => exact ⟨fun _ => nofun, fun _ => .nil⟩
    | cons c cs =>
      have hd := hdigits d List.mem_cons_self
      have hc := htext c List.mem_cons_self
      unfold isDigit at hd hc
      rw [Bool.and_eq_true, decide_eq_true_iff, decide_eq_true_iff] at hd
      rw [Bool.and_eq_false_iff, decide_eq_false_iff_not, decide_eq_false_iff_not] at hc
      rw [List.cons_lt_cons_iff]
      simp only [List.head?_cons, Option.mem_def, Option.some_inj, forall_eq']
      constructor
      · rintro (hlt | ⟨heq, -⟩)
        · rcases hc with hc | hc
          · exact not_le.mp hc
          · exact absurd (hlt.le.trans hd.2) hc
        · rw [heq] at hc
          exact absurd hd (by tauto)
      · exact fun hlt => .inl (hlt.trans_le hd.1)

theorem headKey_le_text {text digits text' digits' : Text}
    (h : headKey text digits ≤ headKey text' digits') : text ≤ text' :=
  (Prod.Lex.toLex_le_toLex.mp h).elim le_of_lt fun heq => heq.1.le

/-- Two strings with digits at the same place and one without go round in a circle only if they
are tangled. -/
theorem tangled_of_cycle {text digits text' digits' last : Text} {rest rest' : Parts}
    (h : Parts.WellFormed (.run text digits rest))
    (h' : Parts.WellFormed (.run text' digits' rest'))
    (hlast : ∀ c ∈ last, isDigit c = false)
    (hlt : compareParts (.run text digits rest) (.run text' digits' rest') = .lt)
    (hsecond : text' ++ digits' < last) (hthird : last < text ++ digits) :
    Tangled (.run text digits rest) (.run text' digits' rest') (.suffix last) := by
  rw [compareParts_run_lt] at hlt
  have hle : text ≤ text' := headKey_le_text (hlt.elim le_of_lt fun heq => heq.1.le)
  rcases hle.lt_or_eq with htext | htext
  · rcases lt_append_or_prefix htext with hall | ⟨more, hmore, rfl⟩
    · exact absurd ((hall digits digits').trans (hsecond.trans hthird)) (lt_irrefl _)
    · rw [List.append_assoc] at hsecond
      obtain ⟨between, rfl, hafter, hbefore⟩ := eq_append_of_between hsecond hthird
      apply Tangled.here hmore _ hafter
      exact (below_digits (fun c hc => hlast c (List.mem_append_right _ hc)) h.2.1 h.2.2.1).mp
        hbefore
  · -- With one text before both runs, the third string would have to go on with a digit.
    rw [← htext] at hsecond
    obtain ⟨between, rfl, hafter, hbefore⟩ := eq_append_of_between hsecond hthird
    have hnone : ∀ c ∈ between, isDigit c = false :=
      fun c hc => hlast c (List.mem_append_right _ hc)
    have hbelow := (below_digits hnone h.2.1 h.2.2.1).mp hbefore
    have hbelow' := (below_digits hnone h'.2.1 h'.2.2.1).mpr hbelow
    exact absurd (hafter.trans hbelow') (lt_irrefl _)

theorem cycle_tangled {p q r : Parts} (hp : p.WellFormed) (hq : q.WellFormed)
    (hr : r.WellFormed) (hpq : compareParts p q = .lt) (hqr : compareParts q r = .lt)
    (hrp : compareParts r p = .lt) : Tangled p q r ∨ Tangled q r p ∨ Tangled r p q := by
  induction p generalizing q r with
  | suffix text =>
    cases q with
    | suffix text' =>
      rw [compareParts_suffix] at hpq
      cases r with
      | suffix text'' =>
        rw [compareParts_suffix] at hqr hrp
        exact absurd ((hpq.trans hqr).trans hrp) (lt_irrefl _)
      | run text'' digits'' rest'' =>
        rw [compareParts_suffix_run] at hqr
        rw [compareParts_run_suffix] at hrp
        exact absurd ((hpq.trans hqr).trans hrp) (lt_irrefl _)
    | run text' digits' rest' =>
      rw [compareParts_suffix_run] at hpq
      cases r with
      | suffix text'' =>
        rw [compareParts_run_suffix] at hqr
        rw [compareParts_suffix] at hrp
        exact absurd ((hpq.trans hqr).trans hrp) (lt_irrefl _)
      | run text'' digits'' rest'' =>
        rw [compareParts_run_suffix] at hrp
        exact .inr (.inl (tangled_of_cycle hq hr hp hqr hrp hpq))
  | run text digits rest ih =>
    cases q with
    | suffix text' =>
      rw [compareParts_run_suffix] at hpq
      cases r with
      | suffix text'' =>
        rw [compareParts_suffix] at hqr
        rw [compareParts_suffix_run] at hrp
        exact absurd ((hpq.trans hqr).trans hrp) (lt_irrefl _)
      | run text'' digits'' rest'' =>
        rw [compareParts_suffix_run] at hqr
        exact .inr (.inr (tangled_of_cycle hr hp hq hrp hpq hqr))
    | run text' digits' rest' =>
      cases r with
      | suffix text'' =>
        rw [compareParts_run_suffix] at hqr
        rw [compareParts_suffix_run] at hrp
        exact .inl (tangled_of_cycle hp hq hr hpq hqr hrp)
      | run text'' digits'' rest'' =>
        rw [compareParts_run_lt] at hpq hqr hrp
        have hle := hpq.elim le_of_lt fun heq => heq.1.le
        have hle' := hqr.elim le_of_lt fun heq => heq.1.le
        have hle'' := hrp.elim le_of_lt fun heq => heq.1.le
        -- The heads go round in a circle too, so that they are the same.
        have heq := le_antisymm hle (hle'.trans hle'')
        have heq' := le_antisymm hle' (hle''.trans hle)
        have hrestPq := (hpq.resolve_left heq.not_lt).2
        have hrestQr := (hqr.resolve_left heq'.not_lt).2
        have hrestRp := (hrp.resolve_left (heq.trans heq').symm.not_lt).2
        obtain ⟨rfl, rfl⟩ := headKey_inj hp.2.2.1 hq.2.2.1 heq
        obtain ⟨rfl, rfl⟩ := headKey_inj hp.2.2.1 hr.2.2.1 heq'
        rcases ih hp.2.2.2 hq.2.2.2 hr.2.2.2 hrestPq hrestQr hrestRp with h | h | h
        · exact .inl h.later
        · exact .inr (.inl h.later)
        · exact .inr (.inr h.later)

theorem Tangled.cycle {p q r : Parts} (h : Tangled p q r) (hp : p.WellFormed)
    (hr : r.WellFormed) :
    compareParts p q = .lt ∧ compareParts q r = .lt ∧ compareParts r p = .lt := by
  induction h with
  | @here text digits more moreDigits last rest moreRest hmore hbelow hafter =>
    rw [compareParts_run_lt, compareParts_run_suffix, compareParts_suffix_run, List.append_assoc,
      append_lt_append_left, append_lt_append_left]
    refine ⟨.inl (Prod.Lex.toLex_lt_toLex.mpr (.inl ?_)), hafter, ?_⟩
    · have hlt : text ++ [] < text ++ more := by
        apply (append_lt_append_left text).mpr
        cases more with
        | nil => exact absurd rfl hmore
        | cons c cs => exact .nil
      rwa [List.append_nil] at hlt
    · have hlast : ∀ c ∈ last, isDigit c = false :=
        fun c hc => hr c (List.mem_append_right _ hc)
      exact (below_digits hlast hp.2.1 hp.2.2.1).mpr hbelow
  | later h ih =>
    obtain ⟨hpq, hqr, hrp⟩ := ih hp.2.2.2 hr.2.2.2
    rw [compareParts_run_lt, compareParts_run_lt, compareParts_run_lt]
    exact ⟨.inr ⟨rfl, hpq⟩, .inr ⟨rfl, hqr⟩, .inr ⟨rfl, hrp⟩⟩

end Tangles

section Runs

/-- Parts with a run of digits, and others, put after their last text. -/
def Parts.followedBy : Parts → Text → Parts → Parts
  | .suffix text, digits, rest => .run text digits rest
  | .run text digits' rest', digits, rest => .run text digits' (rest'.followedBy digits rest)

theorem splitDigits_digits {digits : Text} (hne : digits ≠ [])
    (h : ∀ c ∈ digits, isDigit c = true) {after : Text}
    (hafter : ∀ c ∈ after.head?, isDigit c = false) :
    splitDigits (digits ++ after) = .run [] digits (splitDigits after) := by
  have hrest : ∀ c, isDigit c = true → splitDigits (c :: after) =
      .run [] [c] (splitDigits after) := by
    intro c hc
    rw [splitDigits, if_pos hc]
    split
    case h_1 digits' rest heq =>
      -- What follows does not start with digits.
      have hjoin := join_splitDigits after
      have hwell := splitDigits_wellFormed after
      rw [heq] at hjoin hwell
      cases digits' with
      | nil => exact absurd rfl hwell.2.1
      | cons d ds =>
        have hd := hwell.2.2.1 d List.mem_cons_self
        rw [hafter d (by rw [← hjoin]; rfl)] at hd
        cases hd
    case h_2 => rfl
  induction digits with
  | nil => exact absurd rfl hne
  | cons c cs ih =>
    rw [List.forall_mem_cons] at h
    cases cs with
    | nil => exact hrest c h.1
    | cons d ds =>
      rw [List.cons_append, splitDigits, if_pos h.1, ih (List.cons_ne_nil _ _) h.2]

theorem splitDigits_append {digits : Text} (hne : digits ≠ [])
    (h : ∀ c ∈ digits, isDigit c = true) {before after : Text}
    (hbefore : ∀ c ∈ before.getLast?, isDigit c = false)
    (hafter : ∀ c ∈ after.head?, isDigit c = false) :
    splitDigits (before ++ digits ++ after) =
      (splitDigits before).followedBy digits (splitDigits after) := by
  induction before with
  | nil =>
    rw [List.nil_append, splitDigits_digits hne h hafter]
    rfl
  | cons c cs ih =>
    cases cs with
    | nil =>
      have hc : isDigit c = false := hbefore c rfl
      rw [List.cons_append, List.nil_append, List.cons_append, splitDigits,
        if_neg (by rw [hc]; exact Bool.false_ne_true), splitDigits_digits hne h hafter]
      unfold splitDigits
      rw [if_neg (by rw [hc]; exact Bool.false_ne_true)]
      rfl
    | cons d ds =>
      have ih := ih fun e he => hbefore e (by rw [List.getLast?_cons_cons]; exact he)
      rw [List.cons_append, List.cons_append, splitDigits, ih, splitDigits.eq_def (c :: d :: ds)]
      dsimp only
      split
      · cases hsplit : splitDigits (d :: ds) with
        | suffix text =>
          have hjoin := join_splitDigits (d :: ds)
          rw [hsplit] at hjoin
          change text = d :: ds at hjoin
          rw [hjoin]
          rfl
        | run text digits' rest =>
          cases text with
          | nil => rfl
          | cons e es => rfl
      · cases hsplit : splitDigits (d :: ds) with
        | suffix text => rfl
        | run text digits' rest => rfl

theorem compareParts_followedBy (p : Parts) {digits digits' : Text} (rest rest' : Parts)
    (h : digitsValue digits < digitsValue digits') :
    compareParts (p.followedBy digits rest) (p.followedBy digits' rest') = .lt := by
  induction p with
  | suffix text =>
    apply compareParts_run_lt.mpr
    exact .inl (Prod.Lex.toLex_lt_toLex.mpr (.inr ⟨rfl, Prod.Lex.toLex_lt_toLex.mpr (.inl h)⟩))
  | run text digits'' rest'' ih => exact compareParts_run_lt.mpr (.inr ⟨rfl, ih⟩)

theorem naturalCompare_numbers {before digits digits' after after' : Text}
    (hbefore : ∀ c ∈ before.getLast?, isDigit c = false) (hne : digits ≠ []) (hne' : digits' ≠ [])
    (h : ∀ c ∈ digits, isDigit c = true) (h' : ∀ c ∈ digits', isDigit c = true)
    (hafter : ∀ c ∈ after.head?, isDigit c = false)
    (hafter' : ∀ c ∈ after'.head?, isDigit c = false)
    (hlt : digitsValue digits < digitsValue digits') :
    naturalCompare (before ++ digits ++ after) (before ++ digits' ++ after') = .lt := by
  unfold naturalCompare
  rw [splitDigits_append hne h hbefore hafter, splitDigits_append hne' h' hbefore hafter']
  exact compareParts_followedBy _ _ _ hlt

end Runs

section Order

/-- The comparison as a relation for sorting. -/
def NaturalLE (a b : Text) : Prop := naturalCompare a b ≠ .gt

theorem naturalCompare_eq {a b : Text} : naturalCompare a b = .eq ↔ a = b := by
  unfold naturalCompare
  rw [compareParts_eq (splitDigits_wellFormed a) (splitDigits_wellFormed b)]
  exact splitDigits_injective.eq_iff

theorem naturalCompare_swap (a b : Text) : naturalCompare a b = (naturalCompare b a).swap :=
  compareParts_swap _ _

theorem naturalLE_iff {a b : Text} : NaturalLE a b ↔ a = b ∨ naturalCompare a b = .lt := by
  unfold NaturalLE
  rw [← naturalCompare_eq]
  cases naturalCompare a b <;> decide

theorem naturalLE_total (a b : Text) : NaturalLE a b ∨ NaturalLE b a := by
  unfold NaturalLE
  rw [naturalCompare_swap b a]
  cases naturalCompare a b <;> decide

theorem naturalLE_antisymm {a b : Text} (h : NaturalLE a b) (h' : NaturalLE b a) : a = b := by
  unfold NaturalLE at h h'
  rw [naturalCompare_swap b a] at h'
  apply naturalCompare_eq.mp
  cases hab : naturalCompare a b with
  | lt =>
    rw [hab] at h'
    exact absurd rfl h'
  | eq => rfl
  | gt => exact absurd hab h

/-- No three of the strings, in any order, are tangled. -/
def Untangled (l : List Text) : Prop :=
  ∀ a ∈ l, ∀ b ∈ l, ∀ c ∈ l, ¬ Tangled (splitDigits a) (splitDigits b) (splitDigits c)

/-- What the comparison is to do for some strings: it is a total order on them, each list of
them has one sorted arrangement, and runs of digits are ordered as numbers. -/
structure OrdersTotally (l : List Text) : Prop where
  antisymmetric : ∀ a ∈ l, ∀ b ∈ l, naturalCompare a b = (naturalCompare b a).swap
  eq_iff : ∀ a ∈ l, ∀ b ∈ l, (naturalCompare a b = .eq ↔ a = b)
  trans : ∀ a ∈ l, ∀ b ∈ l, ∀ c ∈ l, NaturalLE a b → NaturalLE b c → NaturalLE a c
  sorts : ∀ xs : List Text, (∀ x ∈ xs, x ∈ l) →
    ∃! sorted : List Text, sorted.Perm xs ∧ sorted.Pairwise NaturalLE
  numbers : ∀ before digits digits' after after' : Text,
    before ++ digits ++ after ∈ l → before ++ digits' ++ after' ∈ l →
      (∀ c ∈ before.getLast?, isDigit c = false) → digits ≠ [] → digits' ≠ [] →
        (∀ c ∈ digits, isDigit c = true) → (∀ c ∈ digits', isDigit c = true) →
          (∀ c ∈ after.head?, isDigit c = false) → (∀ c ∈ after'.head?, isDigit c = false) →
            digitsValue digits < digitsValue digits' →
              naturalCompare (before ++ digits ++ after) (before ++ digits' ++ after') = .lt

theorem Untangled.trans {l : List Text} (h : Untangled l) {a b c : Text} (ha : a ∈ l)
    (hb : b ∈ l) (hc : c ∈ l) (hab : NaturalLE a b) (hbc : NaturalLE b c) : NaturalLE a c := by
  rcases naturalLE_iff.mp hab with rfl | hab
  · exact hbc
  rcases naturalLE_iff.mp hbc with rfl | hbc
  · exact naturalLE_iff.mpr (.inr hab)
  intro hac
  have hca : naturalCompare c a = .lt := by
    rw [naturalCompare_swap, hac]
    rfl
  rcases cycle_tangled (splitDigits_wellFormed a) (splitDigits_wellFormed b)
    (splitDigits_wellFormed c) hab hbc hca with htangled | htangled | htangled
  · exact h a ha b hb c hc htangled
  · exact h b hb c hc a ha htangled
  · exact h c hc a ha b hb htangled

instance : DecidableRel NaturalLE := fun a b =>
  inferInstanceAs (Decidable (naturalCompare a b ≠ .gt))

theorem Untangled.sorts {l : List Text} (h : Untangled l) {xs : List Text}
    (hxs : ∀ x ∈ xs, x ∈ l) :
    ∃! sorted : List Text, sorted.Perm xs ∧ sorted.Pairwise NaturalLE := by
  -- On the strings of the list the comparison is a total order.
  let r : {x // x ∈ l} → {x // x ∈ l} → Prop := fun a b => NaturalLE a.val b.val
  have : Std.Total r := ⟨fun a b => naturalLE_total a.val b.val⟩
  have : IsTrans {x // x ∈ l} r :=
    ⟨fun a b c => h.trans a.property b.property c.property⟩
  let ys : List {x // x ∈ l} := xs.attachWith (· ∈ l) hxs
  have hval : ys.map Subtype.val = xs := List.attachWith_map_subtype_val hxs
  refine ⟨(ys.insertionSort r).map Subtype.val, ⟨?_, ?_⟩, ?_⟩
  · have hperm := (List.perm_insertionSort r ys).map Subtype.val
    rwa [hval] at hperm
  · exact List.pairwise_map.mpr (List.pairwise_insertionSort r ys)
  · rintro sorted ⟨hperm, hsorted⟩
    have hperm' := (List.perm_insertionSort r ys).map Subtype.val
    rw [hval] at hperm'
    apply (hperm.trans hperm'.symm).eq_of_pairwise
    · exact fun _ _ _ _ => naturalLE_antisymm
    · exact hsorted
    · exact List.pairwise_map.mpr (List.pairwise_insertionSort r ys)

/-- The comparison orders strings totally as long as no three of them are tangled, and only
then. -/
theorem naturalCompare_ordersTotally (l : List Text) : OrdersTotally l ↔ Untangled l := by
  constructor
  · intro horders a ha b hb c hc htangled
    obtain ⟨hab, hbc, hca⟩ := htangled.cycle (splitDigits_wellFormed a) (splitDigits_wellFormed c)
    have hle := horders.trans a ha b hb c hc (naturalLE_iff.mpr (.inr hab))
      (naturalLE_iff.mpr (.inr hbc))
    have hac : naturalCompare a c = .gt := by
      rw [naturalCompare_swap]
      exact congrArg Ordering.swap hca
    exact hle hac
  · intro h
    exact
      { antisymmetric := fun a _ b _ => naturalCompare_swap a b
        eq_iff := fun a _ b _ => naturalCompare_eq
        trans := fun a ha b hb c hc => h.trans ha hb hc
        sorts := fun xs hxs => h.sorts hxs
        numbers := fun _ _ _ _ _ _ _ hbefore hne hne' hdigits hdigits' hafter hafter' =>
          naturalCompare_numbers hbefore hne hne' hdigits hdigits' hafter hafter' }

/-- `x1`, `x-5` and `x.` go round in a circle. -/
theorem naturalCompare_tangled : ¬ ∀ l : List Text, OrdersTotally l := by
  intro hall
  have horders := hall [[120, 49], [120, 45, 53], [120, 46]]
  have hle := horders.trans [120, 49] (by simp) [120, 45, 53] (by simp) [120, 46] (by simp)
    (by decide +kernel) (by decide +kernel)
  exact hle (by decide +kernel)

end Order

end AgoricSdk.NaturalSort
