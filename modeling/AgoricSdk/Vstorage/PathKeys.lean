import Mathlib.Data.List.Sort
import Mathlib.Data.Char
import Mathlib.Tactic

/-!
The paths of vstorage and their encoding as keys of the store. A Go string or
byte slice is a list of characters, one for each byte. A valid path is empty or
a sequence of nonempty segments over a small alphabet, joined by dots; its key
is its depth in decimal digits, a nul, and the path with nuls for the dots.

The encoding is read back through the segments: `Path` is the type of valid
paths, `Path.text` its source form and `Path.key` the closed form of its key.
-/

namespace AgoricSdk.Vstorage

/-- A Go string or byte slice, one character for each byte. -/
abbrev Bytes := List Char

instance : LawfulBEq Bytes := List.instLawfulBEq

def pathSeparator : Char := '.'

def encodedKeySeparator : Char := Char.ofNat 0

/-- The alphabet of `pathSegmentPattern`, `[a-zA-Z0-9_-]`. -/
def pathSegmentChar (c : Char) : Bool := c.isAlphanum || c == '_' || c == '-'

/-- The expression `^$|^segment(\.segment)*$`. -/
def pathMatcher (path : Bytes) : Bool :=
  path.isEmpty || (path.splitOn pathSeparator).all fun segment =>
    !segment.isEmpty && segment.all pathSegmentChar

inductive PathError where
  | startsWithSeparator (path : Bytes)
  | endsWithSeparator (path : Bytes)
  | doubledSeparators (path : Bytes)
  | invalidCharacters (path : Bytes)
  deriving DecidableEq

def validatePath (path : Bytes) : Except PathError Unit :=
  if pathMatcher path then .ok ()
  else if [pathSeparator].isPrefixOf path then .error (.startsWithSeparator path)
  else if [pathSeparator].isSuffixOf path then .error (.endsWithSeparator path)
  else if [pathSeparator, pathSeparator] <:+: path then .error (.doubledSeparators path)
  else .error (.invalidCharacters path)

inductive Panic where
  | invalidPath (err : PathError)
  | indexOutOfRange
  | unexpectedPrefix (path : Bytes)
  | cannotRemoveAllContent
  deriving DecidableEq

/-- `fmt.Sprintf("%d", n)` for a natural number. -/
def decimal (n : Nat) : Bytes := Nat.toDigits 10 n

/-- `bytes.ReplaceAll` for a single byte. -/
def replaceAll (old new : Char) (bytes : Bytes) : Bytes :=
  bytes.map fun c => if c = old then new else c

/-- The second part of `bytes.SplitN(key, "\0", 2)`, which is missing when the
key has no separator. -/
def encodedKeyToPath (key : Bytes) : Except Panic Bytes :=
  match key.dropWhile (· ≠ encodedKeySeparator) with
  | [] => .error .indexOutOfRange
  | _ :: encodedPath => .ok (replaceAll encodedKeySeparator pathSeparator encodedPath)

def pathToEncodedKey (path : Bytes) : Except Panic Bytes :=
  match validatePath path with
  | .error err => .error (.invalidPath err)
  | .ok () =>
    let depth := path.count pathSeparator
    let encodedPath := pathSeparator :: path
    let depth := if 0 < path.length then depth + 1 else depth
    .ok (replaceAll pathSeparator encodedKeySeparator (decimal depth ++ encodedPath))

def pathToChildrenPrefix (path : Bytes) : Except Panic Bytes :=
  match validatePath path with
  | .error err => .error (.invalidPath err)
  | .ok () =>
    let encodedPrefix := pathSeparator :: path
    let encodedPrefix :=
      if 0 < path.length then encodedPrefix ++ [pathSeparator] else encodedPrefix
    let depth := encodedPrefix.count pathSeparator
    .ok (replaceAll pathSeparator encodedKeySeparator (decimal depth ++ encodedPrefix))

/-- One segment of a path: it is not empty and keeps to the alphabet. -/
@[ext]
structure Segment where
  val : Bytes
  nonempty : val ≠ []
  alphabet : ∀ c ∈ val, pathSegmentChar c = true
  deriving DecidableEq

/-- A valid path as the sequence of its segments. -/
abbrev Path := List Segment

/-- The path as the source writes it. -/
def Path.text (p : Path) : Bytes := [pathSeparator].intercalate (p.map Segment.val)

/-- The segments of a path, each after the given separator. -/
def Path.joined (sep : Char) (p : Path) : Bytes := p.flatMap fun s => sep :: s.val

/-- The key of a path. -/
def Path.key (p : Path) : Bytes :=
  decimal p.length ++ if p = [] then [encodedKeySeparator] else p.joined encodedKeySeparator

/-- The common beginning of the keys of a path's children. -/
def Path.childrenPrefix (p : Path) : Bytes :=
  decimal (p.length + 1) ++ (p.joined encodedKeySeparator ++ [encodedKeySeparator])

section Characters

theorem decimal_isDigit {n : Nat} {c : Char} (h : c ∈ decimal n) : c.isDigit = true :=
  Nat.isDigit_of_mem_toDigits (by omega) (by omega) h

theorem decimal_injective {n m : Nat} (h : decimal n = decimal m) : n = m := by
  have hn : Nat.ofDigitChars 10 (decimal n) 0 = n := Nat.ofDigitChars_ten_toDigits
  have hm : Nat.ofDigitChars 10 (decimal m) 0 = m := Nat.ofDigitChars_ten_toDigits
  rw [← hn, h, hm]

theorem nul_notMem_decimal (n : Nat) : encodedKeySeparator ∉ decimal n := fun h =>
  absurd (decimal_isDigit h) (by decide)

theorem dot_notMem_decimal (n : Nat) : pathSeparator ∉ decimal n := fun h =>
  absurd (decimal_isDigit h) (by decide)

namespace Segment

theorem dot_notMem (s : Segment) : pathSeparator ∉ s.val := fun h =>
  absurd (s.alphabet _ h) (by decide)

theorem nul_notMem (s : Segment) : encodedKeySeparator ∉ s.val := fun h =>
  absurd (s.alphabet _ h) (by decide)

end Segment

theorem replaceAll_append (old new : Char) (a b : Bytes) :
    replaceAll old new (a ++ b) = replaceAll old new a ++ replaceAll old new b :=
  List.map_append

theorem replaceAll_of_notMem {old new : Char} {a : Bytes} (h : old ∉ a) :
    replaceAll old new a = a := by
  refine (List.map_congr_left fun c hc => ?_).trans (List.map_id a)
  have hne : c ≠ old := fun he => h (he ▸ hc)
  exact if_neg hne

theorem append_sep_inj {sep : Char} {a b x y : Bytes} (ha : sep ∉ a) (hb : sep ∉ b)
    (h : a ++ sep :: x = b ++ sep :: y) : a = b ∧ x = y := by
  induction a generalizing b with
  | nil =>
    cases b with
    | nil => exact ⟨rfl, (List.cons.inj h).2⟩
    | cons c b => exact absurd (List.mem_cons.mpr (.inl (List.cons.inj h).1)) hb
  | cons c a ih =>
    cases b with
    | nil => exact absurd (List.mem_cons.mpr (.inl (List.cons.inj h).1.symm)) ha
    | cons d b =>
      obtain ⟨hcd, h⟩ := List.cons.inj h
      obtain ⟨hab, hxy⟩ := ih (fun hm => ha (List.mem_cons_of_mem _ hm))
        (fun hm => hb (List.mem_cons_of_mem _ hm)) h
      exact ⟨by rw [hcd, hab], hxy⟩

end Characters

namespace Path

@[simp] theorem joined_nil (sep : Char) : joined sep [] = [] := rfl

@[simp] theorem joined_cons (sep : Char) (s : Segment) (p : Path) :
    joined sep (s :: p) = sep :: (s.val ++ joined sep p) := rfl

theorem joined_append (sep : Char) (p q : Path) :
    joined sep (p ++ q) = joined sep p ++ joined sep q := List.flatMap_append

theorem text_cons_cons (s s' : Segment) (p : Path) :
    text (s :: s' :: p) = s.val ++ pathSeparator :: text (s' :: p) := by
  simp [text, List.intercalate_cons_cons]

@[simp] theorem text_nil : text [] = [] := rfl

@[simp] theorem text_singleton (s : Segment) : text [s] = s.val := by
  simp [text]

theorem dot_text {p : Path} (h : p ≠ []) : pathSeparator :: text p = joined pathSeparator p := by
  induction p with
  | nil => exact absurd rfl h
  | cons s p ih =>
    cases p with
    | nil => simp
    | cons s' p =>
      rw [text_cons_cons, joined_cons, ih (by simp)]

theorem text_ne_nil {p : Path} (h : p ≠ []) : text p ≠ [] := by
  intro ht
  cases p with
  | nil => exact h rfl
  | cons s p =>
    have hd := dot_text h
    rw [ht, joined_cons] at hd
    have := (List.cons.inj hd).2
    exact s.nonempty (List.append_eq_nil_iff.mp this.symm).1

@[simp] theorem text_eq_nil_iff {p : Path} : text p = [] ↔ p = [] :=
  ⟨fun h => of_not_not fun hp => text_ne_nil hp h, fun h => by rw [h, text_nil]⟩

theorem splitOn_text {p : Path} (h : p ≠ []) :
    (text p).splitOn pathSeparator = p.map Segment.val := by
  apply List.splitOn_intercalate
  · intro l hl
    obtain ⟨s, -, rfl⟩ := List.mem_map.mp hl
    exact s.dot_notMem
  · simpa using h

theorem pathMatcher_iff {b : Bytes} : pathMatcher b = true ↔ ∃ p : Path, p.text = b := by
  constructor
  · intro h
    by_cases hb : b = []
    · exact ⟨[], by rw [hb, text_nil]⟩
    · have hall : ∀ l ∈ b.splitOn pathSeparator,
          l ≠ [] ∧ ∀ c ∈ l, pathSegmentChar c = true := by
        simpa [pathMatcher, hb] using h
      refine ⟨(b.splitOn pathSeparator).attach.map fun l =>
        ⟨l.1, (hall l.1 l.2).1, (hall l.1 l.2).2⟩, ?_⟩
      simp [text, List.map_map, Function.comp_def, List.intercalate_splitOn]
  · rintro ⟨p, rfl⟩
    by_cases hp : p = []
    · subst hp
      rfl
    · have hs := splitOn_text hp
      simp only [pathMatcher, hs, Bool.or_eq_true, List.all_eq_true]
      right
      intro l hl
      obtain ⟨s, -, rfl⟩ := List.mem_map.mp hl
      simpa using ⟨s.nonempty, s.alphabet⟩

theorem validatePath_iff {b : Bytes} : validatePath b = .ok () ↔ ∃ p : Path, p.text = b := by
  rw [← pathMatcher_iff, validatePath]
  constructor
  · intro h
    by_contra hm
    rw [if_neg hm] at h
    split_ifs at h
  · intro h
    rw [if_pos h]

@[simp] theorem validatePath_text (p : Path) : validatePath p.text = .ok () :=
  validatePath_iff.mpr ⟨p, rfl⟩

theorem map_val_injective {p q : Path} (h : p.map Segment.val = q.map Segment.val) : p = q :=
  List.map_injective_iff.mpr (fun _ _ => Segment.ext) h

theorem text_injective {p q : Path} (h : p.text = q.text) : p = q := by
  by_cases hp : p = []
  · subst hp
    exact (text_eq_nil_iff.mp h.symm).symm
  · have hq : q ≠ [] := fun hq => hp (text_eq_nil_iff.mp (by rw [h, hq, text_nil]))
    exact map_val_injective (by rw [← splitOn_text hp, ← splitOn_text hq, h])

theorem count_joined (sep : Char) (p : Path) (h : ∀ s : Segment, sep ∉ s.val) :
    (joined sep p).count sep = p.length := by
  induction p with
  | nil => rfl
  | cons s p ih =>
    rw [joined_cons, List.count_cons_self, List.count_append, ih,
      List.count_eq_zero_of_not_mem (h s), List.length_cons]
    omega

theorem replaceAll_joined {old new : Char} (p : Path) (h : ∀ s : Segment, old ∉ s.val) :
    replaceAll old new (joined old p) = joined new p := by
  induction p with
  | nil => rfl
  | cons s p ih =>
    have hc : replaceAll old new (old :: (s.val ++ joined old p)) =
        new :: replaceAll old new (s.val ++ joined old p) := by simp [replaceAll]
    rw [joined_cons, hc, replaceAll_append, ih, replaceAll_of_notMem (h s), joined_cons]

theorem pathToEncodedKey_text (p : Path) : pathToEncodedKey p.text = .ok p.key := by
  rw [pathToEncodedKey, validatePath_text]
  by_cases hp : p = []
  · subst hp
    rfl
  · have hlen : 0 < p.text.length := List.length_pos_iff.mpr (text_ne_nil hp)
    have hcount : p.text.count pathSeparator + 1 = p.length := by
      have := count_joined pathSeparator p Segment.dot_notMem
      rwa [← dot_text hp, List.count_cons_self] at this
    simp only [if_pos hlen, hcount, dot_text hp, replaceAll_append, key, if_neg hp,
      replaceAll_of_notMem (dot_notMem_decimal _), replaceAll_joined p Segment.dot_notMem]

theorem pathToChildrenPrefix_text (p : Path) :
    pathToChildrenPrefix p.text = .ok p.childrenPrefix := by
  rw [pathToChildrenPrefix, validatePath_text]
  by_cases hp : p = []
  · subst hp
    rfl
  · have hlen : 0 < p.text.length := List.length_pos_iff.mpr (text_ne_nil hp)
    have hdot : replaceAll pathSeparator encodedKeySeparator [pathSeparator] =
        [encodedKeySeparator] := rfl
    simp only [if_pos hlen, dot_text hp, List.count_append,
      count_joined pathSeparator p Segment.dot_notMem, List.count_singleton_self,
      replaceAll_append, childrenPrefix, replaceAll_of_notMem (dot_notMem_decimal _),
      replaceAll_joined p Segment.dot_notMem, hdot]

theorem key_eq_cons (p : Path) : ∃ r, p.key = decimal p.length ++ encodedKeySeparator :: r ∧
    replaceAll encodedKeySeparator pathSeparator r = p.text := by
  by_cases hp : p = []
  · subst hp
    exact ⟨[], rfl, rfl⟩
  · cases p with
    | nil => exact absurd rfl hp
    | cons s p =>
      refine ⟨s.val ++ joined encodedKeySeparator p, by simp [key], ?_⟩
      have hr : replaceAll encodedKeySeparator pathSeparator (joined encodedKeySeparator (s :: p)) =
          joined pathSeparator (s :: p) := replaceAll_joined (s :: p) Segment.nul_notMem
      rw [← dot_text hp, joined_cons] at hr
      have hc : replaceAll encodedKeySeparator pathSeparator
            (encodedKeySeparator :: (s.val ++ joined encodedKeySeparator p)) =
          pathSeparator :: replaceAll encodedKeySeparator pathSeparator
            (s.val ++ joined encodedKeySeparator p) := by simp [replaceAll]
      rw [hc] at hr
      exact (List.cons.inj hr).2

theorem encodedKeyToPath_key (p : Path) : encodedKeyToPath p.key = .ok p.text := by
  obtain ⟨r, hk, hr⟩ := p.key_eq_cons
  have hdrop : p.key.dropWhile (· ≠ encodedKeySeparator) = encodedKeySeparator :: r := by
    rw [hk, List.dropWhile_append_of_pos]
    · simp
    · intro c hc
      have hne : c ≠ encodedKeySeparator := fun he => nul_notMem_decimal _ (he ▸ hc)
      simpa using hne
  rw [encodedKeyToPath, hdrop]
  simp only [hr]

theorem key_injective {p q : Path} (h : p.key = q.key) : p = q := by
  have hp := encodedKeyToPath_key p
  rw [h, encodedKeyToPath_key q] at hp
  exact (text_injective (Except.ok.inj hp)).symm

theorem key_append_singleton (p : Path) (s : Segment) :
    key (p ++ [s]) = p.childrenPrefix ++ s.val := by
  simp [key, childrenPrefix, joined_append]

theorem joined_eq_cons (sep : Char) (p : Path) (r : Bytes) :
    ∃ x, joined sep p ++ sep :: r = sep :: x := by
  cases p with
  | nil => exact ⟨r, rfl⟩
  | cons s p => exact ⟨_, rfl⟩

theorem exists_of_joined_eq {sep : Char} (hsep : ∀ s : Segment, sep ∉ s.val) {p q : Path}
    {r : Bytes} (h : joined sep q = joined sep p ++ sep :: r) : ∃ s t, q = p ++ s :: t := by
  induction p generalizing q with
  | nil =>
    cases q with
    | nil => cases h
    | cons s t => exact ⟨s, t, rfl⟩
  | cons a p ih =>
    cases q with
    | nil => cases h
    | cons b q =>
      have h' : b.val ++ joined sep q = a.val ++ (joined sep p ++ sep :: r) := by
        simpa using h
      obtain ⟨x, hx⟩ := joined_eq_cons sep p r
      rw [hx] at h'
      cases q with
      | nil =>
        have hmem : sep ∈ b.val := by
          have hb : b.val = a.val ++ sep :: x := by simpa using h'
          simp [hb]
        exact absurd hmem (hsep b)
      | cons c q =>
        obtain ⟨hab, hxy⟩ := append_sep_inj (hsep b) (hsep a) h'
        obtain ⟨s, t, hs⟩ := ih (by rw [joined_cons, hx, ← hxy]; rfl)
        exact ⟨s, t, by rw [hs, Segment.ext hab]; rfl⟩

theorem childrenPrefix_isPrefix_key_iff {p q : Path} :
    p.childrenPrefix <+: q.key ↔ ∃ s, q = p ++ [s] := by
  constructor
  · rintro ⟨r, hr⟩
    obtain ⟨x, hx⟩ := joined_eq_cons encodedKeySeparator p r
    obtain ⟨y, hy, -⟩ := q.key_eq_cons
    have hsplit : decimal (p.length + 1) ++ encodedKeySeparator :: x =
        decimal q.length ++ encodedKeySeparator :: y := by
      rw [← hy, ← hr, ← hx, childrenPrefix]
      simp
    -- The depth is what stands before the first separator.
    obtain ⟨hd, hxy⟩ := append_sep_inj (nul_notMem_decimal _) (nul_notMem_decimal _) hsplit
    have hlen := decimal_injective hd
    have hq : q ≠ [] := by
      rintro rfl
      cases hlen
    have hjoin : joined encodedKeySeparator q =
        joined encodedKeySeparator p ++ encodedKeySeparator :: r := by
      rw [key, if_neg hq] at hy
      rw [List.append_cancel_left hy, ← hxy, hx]
    obtain ⟨s, t, rfl⟩ := exists_of_joined_eq Segment.nul_notMem hjoin
    have ht : t = [] := by
      apply List.eq_nil_of_length_eq_zero
      simp only [List.length_append, List.length_cons] at hlen
      omega
    exact ⟨s, by rw [ht]⟩
  · rintro ⟨s, rfl⟩
    rw [key_append_singleton]
    exact List.prefix_append _ _

/-- The text of a path begins with that of another and a separator exactly when
the path lies strictly below it. -/
theorem text_dot_isPrefix_text_iff {p q : Path} (hp : p ≠ []) :
    p.text ++ [pathSeparator] <+: q.text ↔ ∃ s t, q = p ++ s :: t := by
  constructor
  · rintro ⟨r, hr⟩
    have hq : q ≠ [] := by
      rintro rfl
      simp at hr
    have hjoin : joined pathSeparator q = joined pathSeparator p ++ pathSeparator :: r := by
      rw [← dot_text hq, ← dot_text hp, ← hr]
      simp
    exact exists_of_joined_eq Segment.dot_notMem hjoin
  · rintro ⟨s, t, rfl⟩
    have hjoin : pathSeparator :: text (p ++ s :: t) =
        pathSeparator :: p.text ++ joined pathSeparator (s :: t) := by
      rw [dot_text (by simp), dot_text hp, joined_append]
    exact ⟨s.val ++ joined pathSeparator t, by simpa using (List.cons.inj hjoin).2.symm⟩

end Path

end AgoricSdk.Vstorage
