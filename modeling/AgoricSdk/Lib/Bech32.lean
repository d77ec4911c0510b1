import Mathlib.Tactic
import Mathlib.Data.Nat.Digits.Defs

/-!
Bech32 text (BIP-173): a readable prefix, a separator, and data in an alphabet
of thirty-two characters that ends with a checksum. Bytes are carried as words
of five bits. Decoding accepts exactly the texts that encode something, in
either case but not in both at once.
-/

namespace Bech32

section Digits

/-- The lowest `k` digits of a number, the lowest one first. -/
def lowDigits (b : Nat) : Nat → Nat → List Nat
  | 0, _ => []
  | k + 1, n => n % b :: lowDigits b k (n / b)

@[simp] theorem length_lowDigits (b k n : Nat) : (lowDigits b k n).length = k := by
  induction k generalizing n with
  | zero => rfl
  | succ k ih => rw [lowDigits, List.length_cons, ih]

theorem lowDigits_lt {b : Nat} (hb : 0 < b) {k n d : Nat} (hd : d ∈ lowDigits b k n) : d < b := by
  induction k generalizing n with
  | zero => cases hd
  | succ k ih =>
    rcases List.mem_cons.mp hd with rfl | hd
    · exact Nat.mod_lt _ hb
    · exact ih hd

theorem ofDigits_lowDigits (b k n : Nat) : Nat.ofDigits b (lowDigits b k n) = n % b ^ k := by
  induction k generalizing n with
  | zero => rw [lowDigits, Nat.ofDigits_nil, pow_zero, Nat.mod_one]
  | succ k ih =>
    rw [lowDigits, Nat.ofDigits_cons, ih, pow_succ', Nat.mod_mul]

theorem lowDigits_ofDigits {b : Nat} {ds : List Nat} (h : ∀ d ∈ ds, d < b) :
    lowDigits b ds.length (Nat.ofDigits b ds) = ds := by
  induction ds with
  | nil => rfl
  | cons d ds ih =>
    have hd : d < b := h d (List.mem_cons_self ..)
    have hmod : (d + b * Nat.ofDigits b ds) % b = d := by
      rw [Nat.add_mul_mod_self_left, Nat.mod_eq_of_lt hd]
    have hdiv : (d + b * Nat.ofDigits b ds) / b = Nat.ofDigits b ds := by
      rw [Nat.add_mul_div_left _ _ (Nat.zero_lt_of_lt hd), Nat.div_eq_of_lt hd, Nat.zero_add]
    rw [List.length_cons, Nat.ofDigits_cons, lowDigits]
    change _ :: lowDigits b ds.length ((d + b * Nat.ofDigits b ds) / b) = _
    rw [hdiv, ih fun e he => h e (List.mem_cons_of_mem _ he)]
    exact congrArg (· :: ds) hmod

theorem ofDigits_lt {b : Nat} (hb : 1 < b) {ds : List Nat} (h : ∀ d ∈ ds, d < b) :
    Nat.ofDigits b ds < b ^ ds.length := Nat.ofDigits_lt_base_pow_length hb h

end Digits

section Words

/-- The number of words that carry so many bytes. -/
def wordCount (n : Nat) : Nat := (8 * n + 4) / 5

/-- The bytes in words of five bits, filled up with zeros. -/
def toWords (bytes : List UInt8) : List Nat :=
  let count := wordCount bytes.length
  let value := Nat.ofDigits 256 (bytes.map UInt8.toNat).reverse
  (lowDigits 32 count (value * 2 ^ (5 * count - 8 * bytes.length))).reverse

/-- The bytes that words carry; less than a word of zeros may fill up the end. -/
def fromWords (words : List Nat) : Option (List UInt8) :=
  let count := 5 * words.length / 8
  let pad := 5 * words.length - 8 * count
  let value := Nat.ofDigits 32 words.reverse
  if pad ≥ 5 ∨ value % 2 ^ pad ≠ 0 then none
  else some ((lowDigits 256 count (value / 2 ^ pad)).reverse.map UInt8.ofNat)

@[simp] theorem length_toWords (bytes : List UInt8) :
    (toWords bytes).length = wordCount bytes.length := by
  simp [toWords]

theorem toWords_lt {bytes : List UInt8} {w : Nat} (h : w ∈ toWords bytes) : w < 32 :=
  lowDigits_lt (by decide) (List.mem_reverse.mp h)

theorem toNat_lt_of_mem (bytes : List UInt8) {d : Nat}
    (h : d ∈ (bytes.map UInt8.toNat).reverse) : d < 256 := by
  obtain ⟨byte, -, rfl⟩ := List.mem_map.mp (List.mem_reverse.mp h)
  exact byte.toNat_lt

theorem pow_words {n count pad : Nat} (h : 8 * n + pad = 5 * count) :
    256 ^ n * 2 ^ pad = 32 ^ count := by
  have h256 : (256 : Nat) = 2 ^ 8 := by norm_num
  have h32 : (32 : Nat) = 2 ^ 5 := by norm_num
  rw [h256, h32, ← pow_mul, ← pow_mul, ← pow_add, h]

theorem fromWords_toWords (bytes : List UInt8) : fromWords (toWords bytes) = some bytes := by
  have hcount : 5 * wordCount bytes.length / 8 = bytes.length := by
    unfold wordCount
    omega
  have hpad : ¬ 5 * wordCount bytes.length - 8 * bytes.length ≥ 5 := by
    unfold wordCount
    omega
  have hsum : 8 * bytes.length + (5 * wordCount bytes.length - 8 * bytes.length) =
      5 * wordCount bytes.length := by
    unfold wordCount
    omega
  generalize hp : 5 * wordCount bytes.length - 8 * bytes.length = pad at *
  have hlt : Nat.ofDigits 256 (bytes.map UInt8.toNat).reverse < 256 ^ bytes.length := by
    have := ofDigits_lt (b := 256) (by decide) fun d hd => toNat_lt_of_mem bytes hd
    simpa using this
  have hwords : Nat.ofDigits 32 (toWords bytes).reverse =
      Nat.ofDigits 256 (bytes.map UInt8.toNat).reverse * 2 ^ pad := by
    simp only [toWords, List.reverse_reverse, ofDigits_lowDigits, hp]
    apply Nat.mod_eq_of_lt
    rw [← pow_words hsum]
    exact Nat.mul_lt_mul_of_pos_right hlt (Nat.two_pow_pos pad)
  have hbytes : lowDigits 256 bytes.length (Nat.ofDigits 256 (bytes.map UInt8.toNat).reverse) =
      (bytes.map UInt8.toNat).reverse := by
    have := lowDigits_ofDigits (b := 256) fun d hd => toNat_lt_of_mem bytes hd
    simpa using this
  simp only [fromWords, length_toWords, hcount, hp, hwords, Nat.mul_mod_left,
    Nat.mul_div_cancel _ (Nat.two_pow_pos pad), hbytes, List.reverse_reverse, hpad]
  have hsame : UInt8.ofNat ∘ UInt8.toNat = id := funext fun byte => UInt8.ofNat_toNat
  simp [hsame]

theorem toWords_of_fromWords {words : List Nat} {bytes : List UInt8}
    (h : fromWords words = some bytes) (hlt : ∀ w ∈ words, w < 32) : toWords bytes = words := by
  simp only [fromWords] at h
  split at h
  · cases h
  · rename_i hgood
    obtain ⟨hpad, hzero⟩ := not_or.mp hgood
    have hsum : 8 * (5 * words.length / 8) + (5 * words.length - 8 * (5 * words.length / 8)) =
        5 * words.length := by omega
    generalize hp : 5 * words.length - 8 * (5 * words.length / 8) = pad at *
    generalize hn : 5 * words.length / 8 = n at *
    have hvalue : Nat.ofDigits 32 words.reverse / 2 ^ pad * 2 ^ pad =
        Nat.ofDigits 32 words.reverse :=
      Nat.div_mul_cancel (Nat.dvd_of_mod_eq_zero (not_not.mp hzero))
    have hbound : Nat.ofDigits 32 words.reverse / 2 ^ pad < 256 ^ n := by
      have hwords := ofDigits_lt (b := 32) (by decide) fun d hd => hlt d (List.mem_reverse.mp hd)
      rw [List.length_reverse, ← pow_words hsum] at hwords
      exact Nat.div_lt_of_lt_mul (by rwa [Nat.mul_comm])
    have hlength : bytes.length = n := by
      rw [← Option.some.inj h]
      simp
    have hcount : wordCount n = words.length := by
      unfold wordCount
      omega
    have hdigits : (bytes.map UInt8.toNat).reverse =
        lowDigits 256 n (Nat.ofDigits 32 words.reverse / 2 ^ pad) := by
      rw [← Option.some.inj h, List.map_map, ← List.map_reverse, List.reverse_reverse]
      have hmap : ∀ d ∈ lowDigits 256 n (Nat.ofDigits 32 words.reverse / 2 ^ pad),
          (UInt8.toNat ∘ UInt8.ofNat) d = d := fun d hd =>
        UInt8.toNat_ofNat_of_lt (lowDigits_lt (by decide) hd)
      exact (List.map_congr_left hmap).trans (List.map_id _)
    simp only [toWords, hlength, hcount, hdigits, ofDigits_lowDigits, Nat.mod_eq_of_lt hbound, hp,
      hvalue]
    have hlow := lowDigits_ofDigits (b := 32) fun d hd => hlt d (List.mem_reverse.mp hd)
    rw [List.length_reverse] at hlow
    rw [hlow, List.reverse_reverse]

end Words

section Checksum

/-- The five generators of the checksum. -/
def generators : List Nat := [0x3b6a57b2, 0x26508e6d, 0x1ea119fa, 0x3d4233dd, 0x2a1462b3]

def polymodStep (chk v : Nat) : Nat :=
  let top := chk >>> 25
  generators.zipIdx.foldl (fun chk g => if top.testBit g.2 then chk ^^^ g.1 else chk)
    ((chk &&& 0x1ffffff) <<< 5 ^^^ v)

def polymod (values : List Nat) : Nat := values.foldl polymodStep 1

/-- The prefix as the checksum covers it. -/
def expandPrefix (hrp : List Char) : List Nat :=
  hrp.map (fun c => c.toNat >>> 5) ++ 0 :: hrp.map fun c => c.toNat &&& 31

def checksum (hrp : List Char) (words : List Nat) : List Nat :=
  let residue := polymod (expandPrefix hrp ++ words ++ List.replicate 6 0) ^^^ 1
  (List.range 6).map fun i => residue >>> (5 * (5 - i)) % 32

@[simp] theorem length_checksum (hrp : List Char) (words : List Nat) :
    (checksum hrp words).length = 6 := by
  simp [checksum]

theorem checksum_lt {hrp : List Char} {words : List Nat} {w : Nat} (h : w ∈ checksum hrp words) :
    w < 32 := by
  obtain ⟨i, -, rfl⟩ := List.mem_map.mp h
  exact Nat.mod_lt _ (by decide)

end Checksum

section Alphabet

def charset : List Char := "qpzry9x8gf2tvdw0s3jn54khce6mua7l".toList

/-- The character of a word. -/
def charOf (w : Nat) : Char := charset.getD w 'q'

/-- The word of a character. -/
def valueOf (c : Char) : Option Nat := charset.findIdx? (· == c)

theorem valueOf_charOf {w : Nat} (h : w < 32) : valueOf (charOf w) = some w := by
  have hall : ∀ w < 32, valueOf (charOf w) = some w := by decide
  exact hall w h

theorem valueOf_lt {c : Char} {w : Nat} (h : valueOf c = some w) : w < 32 := by
  have hlt := (List.findIdx?_eq_some_iff_getElem.mp h).1
  exact hlt

theorem charOf_mem (w : Nat) : charOf w ∈ charset := by
  rw [charOf, List.getD_eq_getElem?_getD]
  cases h : charset[w]? with
  | none => decide
  | some c => exact List.mem_of_getElem? h

theorem charOf_ne_separator (w : Nat) : charOf w ≠ '1' := by
  intro h
  have hmem := charOf_mem w
  rw [h] at hmem
  exact absurd hmem (by decide)

theorem toLower_charOf (w : Nat) : (charOf w).toLower = charOf w := by
  have hall : charset.all fun c => c.toLower = c := by decide
  exact of_decide_eq_true (List.all_eq_true.mp hall _ (charOf_mem w))

theorem mapM_valueOf {words : List Nat} (h : ∀ w ∈ words, w < 32) :
    (words.map charOf).mapM valueOf = some words := by
  induction words with
  | nil => rfl
  | cons w words ih =>
    rw [List.map_cons, List.mapM_cons, valueOf_charOf (h w (List.mem_cons_self ..)),
      ih fun v hv => h v (List.mem_cons_of_mem _ hv)]
    rfl

theorem mapM_valueOf_lt {chars : List Char} {words : List Nat}
    (h : chars.mapM valueOf = some words) : ∀ w ∈ words, w < 32 := by
  induction chars generalizing words with
  | nil =>
    cases h
    simp
  | cons c chars ih =>
    rw [List.mapM_cons] at h
    obtain ⟨v, hv, h⟩ := Option.bind_eq_some_iff.mp h
    obtain ⟨vs, hvs, h⟩ := Option.bind_eq_some_iff.mp h
    cases h
    intro w hw
    rcases List.mem_cons.mp hw with rfl | hw
    · exact valueOf_lt hv
    · exact ih hvs w hw

end Alphabet

section Text

def lower (s : List Char) : List Char := s.map Char.toLower

def upper (s : List Char) : List Char := s.map Char.toUpper

/-- A prefix is of printable characters, in lower case as it is encoded. -/
structure ValidPrefix (hrp : List Char) : Prop where
  nonempty : hrp ≠ []
  printable : ∀ c ∈ hrp, 33 ≤ c.toNat ∧ c.toNat ≤ 126
  lower : lower hrp = hrp

instance (hrp : List Char) : Decidable (ValidPrefix hrp) :=
  decidable_of_iff (hrp ≠ [] ∧ (hrp.all fun c => 33 ≤ c.toNat ∧ c.toNat ≤ 126) ∧ lower hrp = hrp)
    ⟨fun h => ⟨h.1, by simpa using h.2.1, h.2.2⟩,
      fun h => ⟨h.nonempty, by simpa using h.printable, h.lower⟩⟩

def encodeWords (hrp : List Char) (words : List Nat) : List Char :=
  hrp ++ '1' :: (words ++ checksum hrp words).map charOf

def encode (hrp : List Char) (bytes : List UInt8) : List Char := encodeWords hrp (toWords bytes)

/-- A text stands for a prefix and words, in one case throughout. -/
structure Encodes (s hrp : List Char) (words : List Nat) : Prop where
  oneCase : lower s = s ∨ upper s = s
  validPrefix : ValidPrefix hrp
  bounded : ∀ w ∈ words, w < 32
  text : lower s = encodeWords hrp words

/-- The prefix and the words of a text in lower case. -/
def decodeLower (s : List Char) : Option (List Char × List Nat) := do
  let data := (s.reverse.takeWhile (· ≠ '1')).reverse
  let hrp := ((s.reverse.dropWhile (· ≠ '1')).drop 1).reverse
  let values ← data.mapM valueOf
  let words := values.take (values.length - 6)
  if ValidPrefix hrp ∧ s = encodeWords hrp words then some (hrp, words) else none

def decode (s : List Char) : Option (List Char × List Nat) :=
  if lower s = s ∨ upper s = s then decodeLower (lower s) else none

theorem length_encode (hrp : List Char) (bytes : List UInt8) :
    (encode hrp bytes).length = hrp.length + 7 + wordCount bytes.length := by
  simp [encode, encodeWords]
  omega

theorem lower_encodeWords {hrp : List Char} (h : lower hrp = hrp) (words : List Nat) :
    lower (encodeWords hrp words) = encodeWords hrp words := by
  have hchars : ((words ++ checksum hrp words).map charOf).map Char.toLower =
      (words ++ checksum hrp words).map charOf := by
    rw [List.map_map]
    exact List.map_congr_left fun w _ => toLower_charOf w
  rw [encodeWords, lower, List.map_append, List.map_cons, hchars]
  exact congrArg₂ (· ++ ·) h rfl

theorem takeWhile_reverse {data : List Char} (h : '1' ∉ data) (hrp : List Char) :
    (hrp ++ '1' :: data).reverse.takeWhile (· ≠ '1') = data.reverse ∧
      (hrp ++ '1' :: data).reverse.dropWhile (· ≠ '1') = '1' :: hrp.reverse := by
  have hall : ∀ c ∈ data.reverse, (c ≠ '1' : Bool) = true := by
    intro c hc
    rw [decide_eq_true_eq]
    rintro rfl
    exact h (List.mem_reverse.mp hc)
  have hsplit : (hrp ++ '1' :: data).reverse = data.reverse ++ '1' :: hrp.reverse := by simp
  rw [hsplit, List.takeWhile_append_of_pos hall, List.dropWhile_append_of_pos hall]
  simp

theorem decodeLower_encodeWords {hrp : List Char} {words : List Nat} (h : ValidPrefix hrp)
    (hwords : ∀ w ∈ words, w < 32) :
    decodeLower (encodeWords hrp words) = some (hrp, words) := by
  have hsep : '1' ∉ (words ++ checksum hrp words).map charOf := by
    intro hm
    obtain ⟨w, -, hw⟩ := List.mem_map.mp hm
    exact charOf_ne_separator w hw
  have hlt : ∀ w ∈ words ++ checksum hrp words, w < 32 := by
    intro w hw
    rcases List.mem_append.mp hw with hw | hw
    · exact hwords w hw
    · exact checksum_lt hw
  obtain ⟨htake, hdrop⟩ := takeWhile_reverse hsep hrp
  have hlength : (words ++ checksum hrp words).length - 6 = words.length := by simp
  simp only [decodeLower, encodeWords, htake, hdrop, List.reverse_reverse, List.drop_succ_cons,
    List.drop_zero, mapM_valueOf hlt, Option.bind_eq_bind, Option.bind_some, hlength,
    List.take_left]
  rw [if_pos ⟨h, trivial⟩]

theorem decodeLower_eq_some {s hrp : List Char} {words : List Nat}
    (h : decodeLower s = some (hrp, words)) :
    ValidPrefix hrp ∧ (∀ w ∈ words, w < 32) ∧ s = encodeWords hrp words := by
  simp only [decodeLower, Option.bind_eq_bind, Option.bind_eq_some_iff] at h
  obtain ⟨values, hvalues, h⟩ := h
  split at h
  · rename_i hgood
    cases h
    exact ⟨hgood.1, fun w hw => mapM_valueOf_lt hvalues w (List.mem_of_mem_take hw), hgood.2⟩
  · cases h

theorem decode_eq_some_iff {s hrp : List Char} {words : List Nat} :
    decode s = some (hrp, words) ↔ Encodes s hrp words := by
  constructor
  · intro h
    rw [decode] at h
    split at h
    · rename_i hcase
      obtain ⟨hbegins, hwords, htext⟩ := decodeLower_eq_some h
      exact ⟨hcase, hbegins, hwords, htext⟩
    · cases h
  · intro h
    rw [decode, if_pos h.oneCase, h.text]
    exact decodeLower_encodeWords h.validPrefix h.bounded

theorem encodes_encode {hrp : List Char} (h : ValidPrefix hrp) (bytes : List UInt8) :
    Encodes (encode hrp bytes) hrp (toWords bytes) where
  oneCase := .inl (lower_encodeWords h.lower _)
  validPrefix := h
  bounded _ hw := toWords_lt hw
  text := lower_encodeWords h.lower _

end Text

end Bech32
