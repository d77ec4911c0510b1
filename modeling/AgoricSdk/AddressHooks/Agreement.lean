import AgoricSdk.Lib.Bech32
import AgoricSdk.Lib.Throwing
import AgoricSdk.AddressHooks.Hooks

/-!
Both languages read one format. A payload is plain, hooked or malformed, and
either split follows this reading; what either join writes reads back as the
base address and the hook data. The packages for bech32 are taken to follow
BIP-173, the one with a limit of 1023 characters and the other with the limit
that it is given.
-/

namespace AgoricSdk.AddressHooks

section Format

/-- What a payload says. -/
inductive Payload where
  | plain
  | hooked (base hookData : Bytes)
  | malformed
  deriving DecidableEq

/-- The number in the last two bytes. -/
def trailingLength (bz : Bytes) : Nat :=
  256 * (bz.getD (bz.length - 2) 0).toNat + (bz.getD (bz.length - 1) 0).toNat

/-- A payload behind the magic bytes. -/
def readVersioned (versionByte : UInt8) (bz : Bytes) : Payload :=
  if versionByte &&& 0x0f ≠ 0 ∨ bz.length < 2 ∨ trailingLength bz > bz.length - 2 then .malformed
  else .hooked (bz.take (trailingLength bz)) ((bz.take (bz.length - 2)).drop (trailingLength bz))

def readPayload : Bytes → Payload
  | a :: b :: c :: bz =>
    if a = 0x78 ∧ b = 0xf1 ∧ c &&& 0xf0 = 0x70 then readVersioned c bz else .plain
  | _ => .plain

/-- The payload of a base address with hook data. -/
def writePayload (base hookData : Bytes) : Bytes :=
  addressHookBytePrefix ++ base ++ hookData ++ Go.lengthBytes base.length

theorem shiftLeft_or_eq {a b : Nat} (h : b < 256) : a <<< 8 ||| b = 256 * a + b := by
  rw [← Nat.shiftLeft_add_eq_or_of_lt h, Nat.shiftLeft_eq]
  omega

theorem trailingLength_append (bz : Bytes) {b : Nat} (h : b < 65536) :
    trailingLength (bz ++ Go.lengthBytes b) = b := by
  have hlength : (bz ++ Go.lengthBytes b).length = bz.length + 2 := by simp [Go.lengthBytes]
  have hhigh : (bz ++ Go.lengthBytes b).getD bz.length 0 = UInt8.ofNat (b >>> 8) := by
    simp [List.getD_eq_getElem?_getD, Go.lengthBytes]
  have hlow : (bz ++ Go.lengthBytes b).getD (bz.length + 1) 0 = UInt8.ofNat b := by
    simp [List.getD_eq_getElem?_getD, Go.lengthBytes]
  rw [trailingLength, hlength, Nat.add_sub_cancel, Nat.add_sub_assoc (by decide), hhigh, hlow,
    UInt8.toNat_ofNat', UInt8.toNat_ofNat', Nat.shiftRight_eq_div_pow]
  omega

theorem readPayload_writePayload {base : Bytes} (h : base.length < 65536) (hookData : Bytes) :
    readPayload (writePayload base hookData) = .hooked base hookData := by
  have hlength := trailingLength_append (base ++ hookData) h
  have hmagic : writePayload base hookData =
      0x78 :: 0xf1 :: 0x70 :: (base ++ hookData ++ Go.lengthBytes base.length) := rfl
  have hend : (base ++ hookData ++ Go.lengthBytes base.length).length - 2 =
      (base ++ hookData).length := by
    rw [List.length_append]
    rfl
  have hgood : ¬ ((0x70 : UInt8) &&& 0x0f ≠ 0 ∨
      (base ++ hookData ++ Go.lengthBytes base.length).length < 2 ∨
      base.length > (base ++ hookData).length) := by
    simp only [List.length_append]
    have htwo : (Go.lengthBytes base.length).length = 2 := rfl
    rintro (hv | hs | hb)
    · exact absurd hv (by decide)
    · omega
    · omega
  rw [hmagic, readPayload, if_pos ⟨rfl, rfl, by decide⟩, readVersioned, hlength, hend,
    if_neg hgood, List.take_left, List.append_assoc, List.take_left, List.drop_left]

end Format

section Go

variable {go : Go.Bech32} {s hrp : Text} {payload : Bytes}

/-- The answer to a text with this payload, given what encodes a base address. -/
def answer (s : Text) (encodeBase : Bytes → Option Text) : Payload → Option (Text × Bytes)
  | .plain => some (s, [])
  | .hooked base hookData => (encodeBase base).map fun baseAddress => (baseAddress, hookData)
  | .malformed => none

theorem liftBech32_toOption {α : Type} (r : Except String α) :
    (liftBech32 r).toOption = r.toOption := by
  cases r <;> rfl

theorem go_splitVersioned (versionByte : UInt8) (bz : Bytes) :
    (Go.splitVersioned go hrp versionByte bz).toOption =
      answer s (fun base => (go.convertAndEncode hrp base).toOption)
        (readVersioned versionByte bz) := by
  have hloop : (List.range baseAddressLengthBytes).reverse.foldl
      (fun b i => b <<< 8 ||| (bz.getD (bz.length - 1 - i) 0).toNat) 0 = trailingLength bz := by
    change (0 <<< 8 ||| (bz.getD (bz.length - 1 - 1) 0).toNat) <<< 8 |||
      (bz.getD (bz.length - 1 - 0) 0).toNat = _
    rw [shiftLeft_or_eq (UInt8.toNat_lt _), shiftLeft_or_eq (UInt8.toNat_lt _), trailingLength]
    simp [Nat.sub_sub]
  have htwo : baseAddressLengthBytes = 2 := rfl
  have hversion : addressHookVersion = 0 := rfl
  rw [Go.splitVersioned, hloop, readVersioned, htwo, hversion]
  dsimp only
  by_cases hv : versionByte &&& 0x0f = 0
  · by_cases hs : bz.length < 2
    · rw [if_neg (not_not.mpr hv), if_pos hs, if_pos (.inr (.inl hs))]
      rfl
    · by_cases hb : trailingLength bz > bz.length - 2
      · rw [if_neg (not_not.mpr hv), if_neg hs, if_pos hb, if_pos (.inr (.inr hb))]
        rfl
      · have hgood : ¬ (versionByte &&& 0x0f ≠ 0 ∨ bz.length < 2 ∨
            trailingLength bz > bz.length - 2) := by
          rintro (hv' | hs' | hb')
          · exact hv' hv
          · exact hs hs'
          · exact hb hb'
        rw [if_neg (not_not.mpr hv), if_neg hs, if_neg hb, if_neg hgood, answer]
        cases go.convertAndEncode hrp (bz.take (trailingLength bz)) <;> rfl
  · rw [if_pos hv, if_pos (.inl hv)]
    rfl

theorem trimPrefix_magic (a b : UInt8) (bz : Bytes) :
    Go.trimPrefix (a :: b :: bz) addressHookBytePrefix.dropLast =
      if a = 0x78 ∧ b = 0xf1 then bz else a :: b :: bz := by
  have hbegins : addressHookBytePrefix.dropLast.isPrefixOf (a :: b :: bz) = true ↔
      a = 0x78 ∧ b = 0xf1 := by
    rw [List.isPrefixOf_iff_prefix]
    change [0x78, 0xf1] <+: a :: b :: bz ↔ _
    rw [List.cons_prefix_cons, List.cons_prefix_cons]
    exact ⟨fun h => ⟨h.1.symm, h.2.1.symm⟩, fun h => ⟨h.1.symm, h.2.symm, List.nil_prefix⟩⟩
  rw [Go.trimPrefix]
  by_cases h : a = 0x78 ∧ b = 0xf1
  · rw [if_pos (hbegins.mpr h), if_pos h]
    rfl
  · rw [if_neg (fun hp => h (hbegins.mp hp)), if_neg h]

theorem go_split (h : go.decodeAndConvert s = .ok (hrp, payload)) :
    (Go.splitHookedAddress go s).toOption =
      answer s (fun base => (go.convertAndEncode hrp base).toOption) (readPayload payload) := by
  have hone : ∀ a, Go.trimPrefix [a] addressHookBytePrefix.dropLast = [a] := by
    intro a
    rw [Go.trimPrefix, if_neg (by simp [addressHookBytePrefix])]
  rw [Go.splitHookedAddress, h]
  dsimp only [liftBech32]
  match payload with
  | [] => rfl
  | [a] =>
    rw [hone]
    rfl
  | [a, b] =>
    rw [trimPrefix_magic]
    by_cases hmagic : a = 0x78 ∧ b = 0xf1
    · rw [if_pos hmagic]
      rfl
    · rw [if_neg hmagic]
      rfl
  | a :: b :: c :: bz =>
    rw [trimPrefix_magic, readPayload]
    by_cases hmagic : a = 0x78 ∧ b = 0xf1
    · by_cases hnibble : c &&& 0xf0 = 0x70
      · have hhooked : ¬ (bz.length + 1 = (a :: b :: c :: bz).length ∨
            c &&& 0xf0 ≠ addressHookBytePrefix.getLastD 0) := by
          rintro (hl | hn)
          · simp only [List.length_cons] at hl
            omega
          · exact hn hnibble
        rw [if_pos hmagic, if_pos ⟨hmagic.1, hmagic.2, hnibble⟩]
        dsimp only
        rw [if_neg hhooked]
        exact go_splitVersioned c bz
      · rw [if_pos hmagic, if_neg fun hc => hnibble hc.2.2]
        dsimp only
        rw [if_pos (.inr hnibble)]
        rfl
    · rw [if_neg hmagic, if_neg fun hc => hmagic ⟨hc.1, hc.2.1⟩]
      dsimp only
      rw [if_pos (.inl (by simp))]
      rfl

end Go

section Js

variable {js : Js.Bech32} {s hrp : Text} {payload : Bytes} {charLimit : Nat}

theorem magicVersion_range (a b c : UInt8) (bz : Bytes) :
    Js.magicVersion (a :: b :: c :: bz) (List.range 3) 0xff =
      if a = 0x78 ∧ b = 0xf1 ∧ c &&& 0xf0 = 0x70 then some (c &&& 0x0f).toNat else none := by
  change (if some a.toNat ≠ some (0x78 : UInt8).toNat then none
    else if some b.toNat ≠ some (0xf1 : UInt8).toNat then none
    else if (c &&& 0xf0).toNat ≠ (0x70 : UInt8).toNat then none
    else some (c &&& 0x0f).toNat) = _
  simp only [ne_eq, Option.some.injEq, UInt8.toNat_inj, ite_not]
  by_cases ha : a = 0x78 <;> by_cases hb : b = 0xf1 <;> by_cases hc : c &&& 0xf0 = 0x70 <;>
    simp only [ha, hb, hc, if_true, if_false, and_true, and_false]

theorem magicVersion_short {bytes : Bytes} (h : bytes.length < 3) :
    Js.magicVersion bytes (List.range 3) 0xff = none := by
  match bytes with
  | [] => rfl
  | [a] =>
    change Js.magicVersion [a] [0, 1, 2] 0xff = none
    simp [Js.magicVersion, addressHookBytePrefix]
  | [a, b] =>
    change Js.magicVersion [a, b] [0, 1, 2] 0xff = none
    simp [Js.magicVersion, addressHookBytePrefix]
  | _ :: _ :: _ :: _ =>
    simp only [List.length_cons] at h
    omega

theorem lengthAtEnd_two {bytes : Bytes} (h : 2 ≤ bytes.length) :
    Js.lengthAtEnd bytes (List.range baseAddressLengthBytes).reverse 0 =
      .ok (trailingLength bytes) := by
  change Js.lengthAtEnd bytes [1, 0] 0 = _
  rw [Js.lengthAtEnd, if_neg (by omega), Js.lengthAtEnd, if_neg (by omega), Js.lengthAtEnd,
    shiftLeft_or_eq (UInt8.toNat_lt _), shiftLeft_or_eq (UInt8.toNat_lt _), trailingLength]
  simp

theorem trailingLength_magic {bz : Bytes} (h : 2 ≤ bz.length) (a b c : UInt8) :
    trailingLength (a :: b :: c :: bz) = trailingLength bz := by
  have hget : ∀ i, i + 1 ≤ bz.length →
      (a :: b :: c :: bz).getD ((a :: b :: c :: bz).length - (i + 1)) 0 =
        bz.getD (bz.length - (i + 1)) 0 := by
    intro i hi
    have hindex : (a :: b :: c :: bz).length - (i + 1) = bz.length - (i + 1) + 3 := by
      simp only [List.length_cons]
      omega
    rw [hindex]
    rfl
  rw [trailingLength, trailingLength, hget 1 h, hget 0 (by omega)]

/-- The rest of the split, once the magic bytes were seen. -/
def jsSplitVersioned (js : Js.Bech32) (hrp : Text) (charLimit version : Nat) (bytes : Bytes) :
    Except HookError (Text × Bytes) :=
  if version ≠ addressHookVersion.toNat then .error (.unsupportedVersion version)
  else match Js.lengthAtEnd bytes (List.range baseAddressLengthBytes).reverse 0 with
    | .error err => .error err
    | .ok b =>
      let available : Int := bytes.length - baseAddressLengthBytes - 3
      if (b : Int) > available then .error (.baseTooLong b available)
      else
        match Js.encodeBech32 js hrp ((bytes.take (3 + b)).drop 3) charLimit with
        | .error err => .error err
        | .ok baseAddress =>
          .ok (baseAddress, (bytes.take (bytes.length - baseAddressLengthBytes)).drop (3 + b))

theorem js_splitVersioned (a b c : UInt8) (bz : Bytes) :
    (jsSplitVersioned js hrp charLimit (c &&& 0x0f).toNat (a :: b :: c :: bz)).toOption =
      answer s (fun base => (Js.encodeBech32 js hrp base charLimit).toOption)
        (readVersioned c bz) := by
  have hversion : (c &&& 0x0f).toNat ≠ addressHookVersion.toNat ↔ c &&& 0x0f ≠ 0 := by
    rw [ne_eq, UInt8.toNat_inj]
    rfl
  have hlength : 2 ≤ (a :: b :: c :: bz).length := by simp
  have havailable : ((a :: b :: c :: bz).length : Int) - baseAddressLengthBytes - 3 =
      (bz.length : Int) - 2 := by
    simp only [List.length_cons, baseAddressLengthBytes]
    omega
  rw [jsSplitVersioned, readVersioned, lengthAtEnd_two hlength]
  dsimp only
  rw [havailable]
  by_cases hv : c &&& 0x0f = 0
  · rw [if_neg fun h => hversion.mp h hv]
    by_cases hs : bz.length < 2
    · -- With fewer than two bytes left, no length fits.
      rw [if_pos (by omega), if_pos (.inr (.inl hs))]
      rfl
    · rw [trailingLength_magic (by omega)]
      by_cases hb : trailingLength bz > bz.length - 2
      · rw [if_pos (by omega), if_pos (.inr (.inr hb))]
        rfl
      · have hgood : ¬ (c &&& 0x0f ≠ 0 ∨ bz.length < 2 ∨ trailingLength bz > bz.length - 2) := by
          rintro (hv' | hs' | hb')
          · exact hv' hv
          · exact hs hs'
          · exact hb hb'
        have hbase : ((a :: b :: c :: bz).take (3 + trailingLength bz)).drop 3 =
            bz.take (trailingLength bz) := by
          rw [Nat.add_comm]
          rfl
        have hhook : ((a :: b :: c :: bz).take
            ((a :: b :: c :: bz).length - baseAddressLengthBytes)).drop (3 + trailingLength bz) =
            (bz.take (bz.length - 2)).drop (trailingLength bz) := by
          have hend : (a :: b :: c :: bz).length - baseAddressLengthBytes =
              bz.length - 2 + 3 := by
            simp only [List.length_cons, baseAddressLengthBytes]
            omega
          rw [hend, Nat.add_comm 3]
          rfl
        rw [if_neg (by omega), if_neg hgood, answer, hbase, hhook]
        cases Js.encodeBech32 js hrp (bz.take (trailingLength bz)) charLimit <;> rfl
  · rw [if_pos (hversion.mpr hv), if_pos (.inl hv)]
    rfl

theorem js_split (h : Js.decodeBech32 js s charLimit = .ok (hrp, payload)) :
    (Js.splitHookedAddress js s charLimit).toOption =
      answer s (fun base => (Js.encodeBech32 js hrp base charLimit).toOption)
        (readPayload payload) := by
  have hthree : addressHookBytePrefix.length = 3 := rfl
  rw [Js.splitHookedAddress, h]
  dsimp only
  rw [hthree]
  match payload with
  | [] => rfl
  | [a] =>
    rw [magicVersion_short (by simp)]
    rfl
  | [a, b] =>
    rw [magicVersion_short (by simp)]
    rfl
  | a :: b :: c :: bz =>
    rw [magicVersion_range, readPayload]
    by_cases hmagic : a = 0x78 ∧ b = 0xf1 ∧ c &&& 0xf0 = 0x70
    · rw [if_pos hmagic, if_pos hmagic]
      exact js_splitVersioned a b c bz
    · rw [if_neg hmagic, if_neg hmagic]
      rfl

end Js

section Packages

/-- The limit on the characters of an address that the chain decodes. -/
def goCharLimit : Nat := 1023

/-- The text stands for a prefix and bytes. -/
def Stands (s hrp : Text) (bytes : Bytes) : Prop :=
  ∃ words, Bech32.Encodes s hrp words ∧ Bech32.fromWords words = some bytes

/-- The package follows BIP-173 up to its limit. -/
structure LawfulGo (go : Go.Bech32) : Prop where
  decodes : ∀ s hrp bytes, go.decodeAndConvert s = .ok (hrp, bytes) ↔
    s.length ≤ goCharLimit ∧ Stands s hrp bytes
  encodes : ∀ hrp bytes, Bech32.ValidPrefix hrp →
    go.convertAndEncode hrp bytes = .ok (Bech32.encode hrp bytes)

def Ascii (s : Text) : Prop := ∀ c ∈ s, c.toNat < 128

instance (s : Text) : Decidable (Ascii s) := List.decidableBAll _ s

/-- The package follows BIP-173 up to the limit that it is given. -/
structure LawfulJs (js : Js.Bech32) : Prop where
  decodes : ∀ s limit hrp words, Ascii s → 0 < limit →
    (js.decode s limit = .ok (hrp, words) ↔ s.length ≤ limit ∧ Bech32.Encodes s hrp words)
  fromWords : ∀ words bytes, (∀ w ∈ words, w < 32) →
    (js.fromWords words = .ok bytes ↔ Bech32.fromWords words = some bytes)
  toWords : ∀ bytes, js.toWords bytes = Bech32.toWords bytes
  encodes : ∀ hrp words limit, Bech32.ValidPrefix hrp → (∀ w ∈ words, w < 32) → 0 < limit →
    (js.encode hrp words limit).toOption =
      if hrp.length + 7 + words.length ≤ limit then some (Bech32.encodeWords hrp words) else none

theorem stands_encode {hrp : Text} (h : Bech32.ValidPrefix hrp) (bytes : Bytes) :
    Stands (Bech32.encode hrp bytes) hrp bytes :=
  ⟨_, Bech32.encodes_encode h bytes, Bech32.fromWords_toWords bytes⟩

theorem Stands.validPrefix {s hrp : Text} {bytes : Bytes} (h : Stands s hrp bytes) :
    Bech32.ValidPrefix hrp := by
  obtain ⟨words, hwords, -⟩ := h
  exact hwords.validPrefix

theorem Stands.encode {s hrp : Text} {bytes : Bytes} (h : Stands s hrp bytes) :
    Bech32.encode hrp bytes = Bech32.lower s := by
  obtain ⟨words, hwords, hbytes⟩ := h
  rw [hwords.text, Bech32.encode, Bech32.toWords_of_fromWords hbytes hwords.bounded]

theorem Stands.length {s hrp : Text} {bytes : Bytes} (h : Stands s hrp bytes) :
    s.length = hrp.length + 7 + Bech32.wordCount bytes.length := by
  rw [← Bech32.length_encode, h.encode, Bech32.lower, List.length_map]

end Packages

section Agreement

variable {go : Go.Bech32} {js : Js.Bech32} {s hrp : Text} {bytes : Bytes}

theorem ascii_encode {hrp : Text} (h : Bech32.ValidPrefix hrp) (bytes : Bytes) :
    Ascii (Bech32.encode hrp bytes) := by
  intro c hc
  rw [Bech32.encode, Bech32.encodeWords, List.mem_append, List.mem_cons] at hc
  rcases hc with hc | rfl | hc
  · have := (h.printable c hc).2
    omega
  · decide
  · obtain ⟨w, -, rfl⟩ := List.mem_map.mp hc
    have hall : Bech32.charset.all fun c => c.toNat < 128 := by decide
    exact of_decide_eq_true (List.all_eq_true.mp hall _ (Bech32.charOf_mem w))

theorem js_decodeBech32 (hjs : LawfulJs js) (hs : Ascii s) {limit : Nat} (hlimit : 0 < limit) :
    Js.decodeBech32 js s limit = .ok (hrp, bytes) ↔ s.length ≤ limit ∧ Stands s hrp bytes := by
  rw [Js.decodeBech32]
  constructor
  · intro h
    cases hdecode : js.decode s limit with
    | error err => rw [hdecode] at h; cases h
    | ok decoded =>
      obtain ⟨hrp', words⟩ := decoded
      obtain ⟨hlength, hwords⟩ := (hjs.decodes s limit hrp' words hs hlimit).mp hdecode
      simp only [hdecode, liftBech32] at h
      cases hbytes : js.fromWords words with
      | error err => simp [hbytes] at h
      | ok bytes' =>
        simp only [hbytes, Except.ok.injEq, Prod.mk.injEq] at h
        obtain ⟨rfl, rfl⟩ := h
        exact ⟨hlength, words, hwords, (hjs.fromWords words bytes' hwords.bounded).mp hbytes⟩
  · rintro ⟨hlength, words, hwords, hbytes⟩
    rw [(hjs.decodes s limit hrp words hs hlimit).mpr ⟨hlength, hwords⟩, liftBech32]
    dsimp only
    rw [(hjs.fromWords words bytes hwords.bounded).mpr hbytes, liftBech32]

theorem js_encodeBech32 (hjs : LawfulJs js) (h : Bech32.ValidPrefix hrp) {limit : Nat}
    (hlimit : 0 < limit) : (Js.encodeBech32 js hrp bytes limit).toOption =
      if hrp.length + 7 + Bech32.wordCount bytes.length ≤ limit then some (Bech32.encode hrp bytes)
      else none := by
  rw [Js.encodeBech32, liftBech32_toOption, hjs.toWords,
    hjs.encodes hrp _ limit h (fun w hw => Bech32.toWords_lt hw) hlimit, Bech32.length_toWords]
  rfl

/-- The answer to a text by the format alone. -/
def splitOf (s hrp : Text) (bytes : Bytes) : Option (Text × Bytes) :=
  answer s (fun base => some (Bech32.encode hrp base)) (readPayload bytes)

theorem go_splitOf (hgo : LawfulGo go) (h : Stands s hrp bytes) (hlength : s.length ≤ goCharLimit) :
    (Go.splitHookedAddress go s).toOption = splitOf s hrp bytes := by
  rw [go_split ((hgo.decodes s hrp bytes).mpr ⟨hlength, h⟩), splitOf]
  congr 1
  funext base
  rw [hgo.encodes hrp base h.validPrefix]
  rfl

theorem go_too_long (hgo : LawfulGo go) (h : goCharLimit < s.length) :
    (Go.splitHookedAddress go s).toOption = none := by
  rw [Go.splitHookedAddress]
  cases hdecode : go.decodeAndConvert s with
  | error err => rfl
  | ok decoded =>
    have hle := ((hgo.decodes s _ _).mp hdecode).1
    omega

theorem length_le_of_hooked {base hookData : Bytes} (h : readPayload bytes = .hooked base hookData) :
    base.length ≤ bytes.length := by
  match bytes with
  | [] => cases h
  | [_] => cases h
  | [_, _] => cases h
  | a :: b :: c :: bz =>
    rw [readPayload] at h
    split at h
    · rw [readVersioned] at h
      split at h
      · cases h
      · obtain ⟨rfl, -⟩ := Payload.hooked.inj h
        simp only [List.length_take, List.length_cons]
        omega
    · cases h

theorem js_splitOf (hjs : LawfulJs js) (hs : Ascii s) {limit : Nat} (h : Stands s hrp bytes)
    (hlimit : 0 < limit) (hlength : s.length ≤ limit) :
    (Js.splitHookedAddress js s limit).toOption = splitOf s hrp bytes := by
  rw [js_split ((js_decodeBech32 hjs hs hlimit).mpr ⟨hlength, h⟩), splitOf]
  cases hread : readPayload bytes with
  | plain => rfl
  | malformed => rfl
  | hooked base hookData =>
    have hle := length_le_of_hooked hread
    have hfits : hrp.length + 7 + Bech32.wordCount base.length ≤ limit := by
      have hslength := h.length
      unfold Bech32.wordCount at hslength ⊢
      omega
    rw [answer, js_encodeBech32 hjs h.validPrefix hlimit, if_pos hfits]
    rfl

theorem splitOf_joined {base : Text} (h : Stands base hrp bytes) (hlt : bytes.length < 65536)
    (hookData : Bytes) :
    splitOf (Bech32.encode hrp (writePayload bytes hookData)) hrp (writePayload bytes hookData) =
      some (Bech32.lower base, hookData) := by
  rw [splitOf, readPayload_writePayload hlt, answer, h.encode]
  rfl

theorem go_join (hgo : LawfulGo go) {base hooked : Text} {hookData : Bytes}
    (h : Go.joinHookedAddress go base hookData = .ok hooked) :
    ∃ hrp bytes, Stands base hrp bytes ∧ bytes.length < 65536 ∧
      hooked = Bech32.encode hrp (writePayload bytes hookData) := by
  rw [Go.joinHookedAddress] at h
  cases hdecode : go.decodeAndConvert base with
  | error err => rw [hdecode] at h; cases h
  | ok decoded =>
    obtain ⟨hrp, bytes⟩ := decoded
    obtain ⟨-, hstands⟩ := (hgo.decodes base hrp bytes).mp hdecode
    simp only [hdecode, liftBech32] at h
    split at h
    · cases h
    · rename_i hmax
      have hmaxB : 1 <<< (8 * baseAddressLengthBytes - 1) + 1 = 32769 := rfl
      rw [hmaxB] at hmax
      rw [hgo.encodes hrp _ hstands.validPrefix] at h
      exact ⟨hrp, bytes, hstands, by omega, (Except.ok.inj h).symm⟩

theorem lengthBytes_eq (b : Nat) :
    [UInt8.ofNat (b >>> 8 &&& 0xff), UInt8.ofNat (b &&& 0xff)] = Go.lengthBytes b := by
  have hbyte : ∀ n, UInt8.ofNat (n &&& 0xff) = UInt8.ofNat n := by
    intro n
    have hand : n &&& 0xff = n % 2 ^ 8 := Nat.and_two_pow_sub_one_eq_mod n 8
    apply UInt8.toNat_inj.mp
    rw [UInt8.toNat_ofNat', UInt8.toNat_ofNat', hand, Nat.mod_mod]
  rw [hbyte, hbyte, Go.lengthBytes]

theorem js_join (hjs : LawfulJs js) {base hooked : Text} {hookData : Bytes} (hs : Ascii base)
    {limit : Nat} (hlimit : 0 < limit)
    (h : Js.joinHookedAddress js base hookData limit = .ok hooked) :
    ∃ hrp bytes, Stands base hrp bytes ∧ bytes.length < 65536 ∧
      hooked = Bech32.encode hrp (writePayload bytes hookData) ∧ hooked.length ≤ limit := by
  rw [Js.joinHookedAddress] at h
  cases hdecode : Js.decodeBech32 js base limit with
  | error err => rw [hdecode] at h; cases h
  | ok decoded =>
    obtain ⟨hrp, bytes⟩ := decoded
    obtain ⟨-, hstands⟩ := (js_decodeBech32 hjs hs hlimit).mp hdecode
    simp only [hdecode] at h
    split at h
    · cases h
    · rename_i hmax
      have hmaximum : 2 ^ (baseAddressLengthBytes * 8) = 65536 := rfl
      rw [hmaximum] at hmax
      rw [lengthBytes_eq] at h
      have hoption := congrArg Except.toOption h
      rw [js_encodeBech32 hjs hstands.validPrefix hlimit] at hoption
      split at hoption
      · rename_i hfits
        obtain rfl := Option.some.inj hoption
        refine ⟨hrp, bytes, hstands, by omega, rfl, ?_⟩
        rw [Bech32.length_encode]
        exact hfits
      · cases hoption

/-- Joined addresses read back in both languages, as far as each reads, and the
two read alike every text that is short enough for both. -/
theorem address_hooks_agree (hgo : LawfulGo go) (hjs : LawfulJs js) :
    (∀ base hookData hooked, Go.joinHookedAddress go base hookData = .ok hooked →
      hooked.length ≤ goCharLimit →
      Go.splitHookedAddress go hooked = .ok (Bech32.lower base, hookData) ∧
      Js.splitHookedAddress js hooked = .ok (Bech32.lower base, hookData)) ∧
    (∀ (Query : Type) (stringify : Query → String) (base : Text) (query : Query) (hooked : Text),
      Ascii base → Js.encodeAddressHook js stringify base query = .ok hooked →
      Js.splitHookedAddress js hooked =
        .ok (Bech32.lower base, Js.queryHookData stringify query) ∧
      (hooked.length ≤ goCharLimit → Go.splitHookedAddress go hooked =
        .ok (Bech32.lower base, Js.queryHookData stringify query))) ∧
    (∀ s : Text, Ascii s → s.length ≤ goCharLimit →
      (Go.splitHookedAddress go s).toOption = (Js.splitHookedAddress js s).toOption) := by
  have hpos : 0 < Js.defaultHookedAddressCharLimit := by decide
  have hlimits : goCharLimit ≤ Js.defaultHookedAddressCharLimit := by decide
  refine ⟨?_, ?_, ?_⟩
  · intro base hookData hooked hjoin hlength
    obtain ⟨hrp, bytes, hstands, hlt, rfl⟩ := go_join hgo hjoin
    have hhooked := stands_encode hstands.validPrefix (writePayload bytes hookData)
    have hsplit := splitOf_joined hstands hlt hookData
    constructor
    · exact eq_ok_of_toOption ((go_splitOf hgo hhooked hlength).trans hsplit)
    · exact eq_ok_of_toOption ((js_splitOf hjs (ascii_encode hstands.validPrefix _) hhooked hpos
        (hlength.trans hlimits)).trans hsplit)
  · intro Query stringify base query hooked hbase hjoin
    obtain ⟨hrp, bytes, hstands, hlt, rfl, hlength⟩ := js_join hjs hbase hpos hjoin
    have hhooked := stands_encode hstands.validPrefix
      (writePayload bytes (Js.queryHookData stringify query))
    have hsplit := splitOf_joined hstands hlt (Js.queryHookData stringify query)
    constructor
    · exact eq_ok_of_toOption ((js_splitOf hjs (ascii_encode hstands.validPrefix _) hhooked hpos
        hlength).trans hsplit)
    · exact fun hshort => eq_ok_of_toOption ((go_splitOf hgo hhooked hshort).trans hsplit)
  · intro s hs hlength
    by_cases hstands : ∃ hrp bytes, Stands s hrp bytes
    · obtain ⟨hrp, bytes, hstands⟩ := hstands
      rw [go_splitOf hgo hstands hlength, js_splitOf hjs hs hstands hpos (hlength.trans hlimits)]
    · have hgofails : (Go.splitHookedAddress go s).toOption = none := by
        rw [Go.splitHookedAddress]
        cases hdecode : go.decodeAndConvert s with
        | error err => rfl
        | ok decoded => exact absurd ⟨_, _, ((hgo.decodes s _ _).mp hdecode).2⟩ hstands
      have hjsfails : (Js.splitHookedAddress js s).toOption = none := by
        rw [Js.splitHookedAddress]
        cases hdecode : Js.decodeBech32 js s Js.defaultHookedAddressCharLimit with
        | error err => rfl
        | ok decoded =>
          exact absurd ⟨_, _, ((js_decodeBech32 hjs hs hpos).mp hdecode).2⟩ hstands
      rw [hgofails, hjsfails]

end Agreement

section Bip173

/-- A package for Go that follows BIP-173. -/
def bip173Go : Go.Bech32 where
  decodeAndConvert s :=
    if goCharLimit < s.length then .error "decoding bech32 failed: invalid bech32 string length"
    else match Bech32.decode s with
      | none => .error "decoding bech32 failed"
      | some (hrp, words) =>
        match Bech32.fromWords words with
        | none => .error "invalid incomplete group"
        | some bytes => .ok (hrp, bytes)
  convertAndEncode hrp bytes := .ok (Bech32.encode hrp bytes)

/-- The Kelvin sign has the letter k as its lower case. -/
def kelvinSign : Char := Char.ofNat 0x212a

def toLowerCase (c : Char) : Char := if c = kelvinSign then 'k' else c.toLower

/-- A package for JavaScript that follows BIP-173, with the case mapping of that
language. -/
def bip173Js : Js.Bech32 where
  decode s limit :=
    if limit < s.length then .error "Exceeds length limit"
    else if s.map toLowerCase ≠ s ∧ Bech32.upper s ≠ s then .error "Mixed-case string"
    else match Bech32.decodeLower (s.map toLowerCase) with
      | none => .error "Invalid checksum"
      | some decoded => .ok decoded
  fromWords words :=
    match Bech32.fromWords words with
    | none => .error "Excess padding"
    | some bytes => .ok bytes
  toWords := Bech32.toWords
  encode hrp words limit :=
    if hrp.length + 7 + words.length ≤ limit then .ok (Bech32.encodeWords hrp words)
    else .error "Exceeds length limit"

theorem lawful_bip173Go : LawfulGo bip173Go where
  decodes s hrp bytes := by
    change (if goCharLimit < s.length then _ else _) = _ ↔ _
    by_cases hlength : goCharLimit < s.length
    · rw [if_pos hlength]
      constructor
      · intro h
        cases h
      · intro h
        exact absurd h.1 (by omega)
    · rw [if_neg hlength]
      constructor
      · intro h
        cases hdecode : Bech32.decode s with
        | none => rw [hdecode] at h; cases h
        | some decoded =>
          obtain ⟨hrp', words⟩ := decoded
          cases hbytes : Bech32.fromWords words with
          | none => simp [hdecode, hbytes] at h
          | some bytes' =>
            simp only [hdecode, hbytes, Except.ok.injEq, Prod.mk.injEq] at h
            obtain ⟨rfl, rfl⟩ := h
            exact ⟨by omega, words, Bech32.decode_eq_some_iff.mp hdecode, hbytes⟩
      · rintro ⟨-, words, hwords, hbytes⟩
        simp only [Bech32.decode_eq_some_iff.mpr hwords, hbytes]
  encodes _ _ _ := rfl

theorem map_toLowerCase {s : Text} (h : Ascii s) : s.map toLowerCase = Bech32.lower s := by
  apply List.map_congr_left
  intro c hc
  rw [toLowerCase, if_neg]
  rintro rfl
  exact absurd (h _ hc) (by decide)

theorem lawful_bip173Js : LawfulJs bip173Js where
  decodes s limit hrp words hs _ := by
    have hlower := map_toLowerCase hs
    change (if limit < s.length then _ else if s.map toLowerCase ≠ s ∧ Bech32.upper s ≠ s then _
      else match Bech32.decodeLower (s.map toLowerCase) with
        | none => _
        | some decoded => _) = _ ↔ _
    rw [hlower, ← Bech32.decode_eq_some_iff, Bech32.decode]
    by_cases hlength : limit < s.length
    · rw [if_pos hlength]
      constructor
      · intro h
        cases h
      · intro h
        exact absurd h.1 (by omega)
    · rw [if_neg hlength]
      by_cases hcase : Bech32.lower s = s ∨ Bech32.upper s = s
      · rw [if_neg fun h => hcase.elim h.1 h.2, if_pos hcase]
        cases hdecode : Bech32.decodeLower (Bech32.lower s) with
        | none => simp
        | some decoded => simp [Nat.not_lt.mp hlength]
      · rw [if_pos (not_or.mp hcase), if_neg hcase]
        simp
  fromWords words bytes _ := by
    change (match Bech32.fromWords words with
      | none => _
      | some bytes => _) = _ ↔ _
    cases Bech32.fromWords words <;> simp
  toWords _ := rfl
  encodes hrp words limit _ _ _ := by
    change (if hrp.length + 7 + words.length ≤ limit then _ else _ : Except String Text).toOption = _
    split <;> rfl

def baseAddress : Text := "agoric1qqqsyqcyq5rqwzqfpg9scrgwpugpzysn3tn9p0".toList

def hookedAddress : Text :=
  "agoric10rchqqqpqgpsgpgxquyqjzstpsxsurcszyfpxpqrqgqsq9qx0p9wp".toList

theorem baseAddress_chars : baseAddress =
    ['a', 'g', 'o', 'r', 'i', 'c', '1', 'q', 'q', 'q', 's', 'y', 'q', 'c', 'y', 'q', '5', 'r',
     'q', 'w', 'z', 'q', 'f', 'p', 'g', '9', 's', 'c', 'r', 'g', 'w', 'p', 'u', 'g', 'p', 'z',
     'y', 's', 'n', '3', 't', 'n', '9', 'p', '0'] :=
  String.toList_ofList

theorem hookedAddress_chars : hookedAddress =
    ['a', 'g', 'o', 'r', 'i', 'c', '1', '0', 'r', 'c', 'h', 'q', 'q', 'q', 'p', 'q', 'g', 'p',
     's', 'g', 'p', 'g', 'x', 'q', 'u', 'y', 'q', 'j', 'z', 's', 't', 'p', 's', 'x', 's', 'u',
     'r', 'c', 's', 'z', 'y', 'f', 'p', 'x', 'p', 'q', 'r', 'q', 'g', 'q', 's', 'q', '9', 'q',
     'x', '0', 'p', '9', 'w', 'p'] :=
  String.toList_ofList

theorem hooks_agree_on_base :
    (Go.splitHookedAddress bip173Go hookedAddress = .ok (baseAddress, [4, 3, 2, 1]) ∧
      Js.splitHookedAddress bip173Js hookedAddress = .ok (baseAddress, [4, 3, 2, 1])) ∧
    (Go.splitHookedAddress bip173Go baseAddress).toOption =
      (Js.splitHookedAddress bip173Js baseAddress).toOption := by
  have h := address_hooks_agree lawful_bip173Go lawful_bip173Js
  have hjoin : Go.joinHookedAddress bip173Go baseAddress [4, 3, 2, 1] = .ok hookedAddress := by
    rw [baseAddress_chars, hookedAddress_chars]
    decide +kernel
  refine ⟨h.1 baseAddress _ _ hjoin ?_, h.2.2 baseAddress ?_ ?_⟩
  · rw [hookedAddress_chars]
    decide
  · rw [baseAddress_chars]
    decide
  · rw [baseAddress_chars]
    decide

/-- An address in upper case, as bech32 allows. -/
def upperAddress : Text := "AGORIC1QQP0E5YS".toList

/-- An address of 1024 characters. -/
def longAddress : Text := Bech32.encode "noble".toList (List.replicate 632 0)

/-- An address in upper case but for the sign of its letter k. -/
def kelvinAddress : Text := "AGORIC1".toList ++ kelvinSign :: "QVX5YRL".toList

theorem upperAddress_chars : upperAddress =
    ['A', 'G', 'O', 'R', 'I', 'C', '1', 'Q', 'Q', 'P', '0', 'E', '5', 'Y', 'S'] :=
  String.toList_ofList

theorem longAddress_stands : Stands longAddress "noble".toList (List.replicate 632 0) :=
  stands_encode (by decide) _

theorem longAddress_length : longAddress.length = 1024 := by
  rw [longAddress, Bech32.length_encode, List.length_replicate]
  rfl

theorem shortAddress_chars : "agoric1qqp0e5ys".toList =
    ['a', 'g', 'o', 'r', 'i', 'c', '1', 'q', 'q', 'p', '0', 'e', '5', 'y', 's'] :=
  String.toList_ofList

theorem join_short (hookData : Bytes) :
    Go.joinHookedAddress bip173Go "agoric1qqp0e5ys".toList hookData =
      .ok (Bech32.encode "agoric".toList (writePayload [0] hookData)) := by
  have hdecode : bip173Go.decodeAndConvert "agoric1qqp0e5ys".toList =
      .ok ("agoric".toList, [0]) := by
    rw [shortAddress_chars, show "agoric".toList = ['a', 'g', 'o', 'r', 'i', 'c'] from
      String.toList_ofList]
    decide +kernel
  rw [Go.joinHookedAddress, hdecode]
  rfl

/-- The round trip and the agreement fail for an address in upper case, for a
joined address that is too long, for a text between the two limits, and for a
character whose lower case is a letter. -/
theorem hooks_disagree :
    ¬ (∀ base hookData hooked, Go.joinHookedAddress bip173Go base hookData = .ok hooked →
        Go.splitHookedAddress bip173Go hooked = .ok (base, hookData)) ∧
    ¬ (∀ base hookData hooked, Bech32.lower base = base →
        Go.joinHookedAddress bip173Go base hookData = .ok hooked →
        Go.splitHookedAddress bip173Go hooked = .ok (base, hookData)) ∧
    ¬ (∀ s : Text, Ascii s → s.length ≤ Js.defaultHookedAddressCharLimit →
        (Go.splitHookedAddress bip173Go s).toOption =
          (Js.splitHookedAddress bip173Js s).toOption) ∧
    ¬ ∀ s : Text, s.length ≤ goCharLimit →
        (Go.splitHookedAddress bip173Go s).toOption =
          (Js.splitHookedAddress bip173Js s).toOption := by
  refine ⟨?_, ?_, ?_, ?_⟩
  · intro h
    have hjoin : Go.joinHookedAddress bip173Go upperAddress [] =
        .ok
          ['a', 'g', 'o', 'r', 'i', 'c', '1', '0', 'r', 'c', 'h', 'q', 'q', 'q', 'q', 'q', 'y',
           '7', '4', 's', '2', 'f', '5'] := by
      rw [upperAddress_chars]
      decide +kernel
    have hsplit := h _ _ _ hjoin
    rw [upperAddress_chars] at hsplit
    exact absurd hsplit (by decide +kernel)
  · intro h
    have hjoin := join_short (List.replicate 700 0)
    have hlong : goCharLimit <
        (Bech32.encode "agoric".toList (writePayload [0] (List.replicate 700 0))).length := by
      rw [Bech32.length_encode]
      simp only [writePayload, List.length_append, List.length_replicate]
      decide
    have hsplit := h _ _ _ (by decide) hjoin
    have hnone := go_too_long lawful_bip173Go hlong
    rw [hsplit] at hnone
    cases hnone
  · intro h
    have hascii : Ascii longAddress := ascii_encode (by decide) _
    have hjs : (Js.splitHookedAddress bip173Js longAddress).toOption =
        splitOf longAddress "noble".toList (List.replicate 632 0) :=
      js_splitOf lawful_bip173Js hascii longAddress_stands (by decide) longAddress_length.le
    have hgo : (Go.splitHookedAddress bip173Go longAddress).toOption = none :=
      go_too_long lawful_bip173Go (by rw [longAddress_length]; decide)
    have hplain : readPayload (List.replicate 632 0) = .plain := rfl
    rw [splitOf, hplain] at hjs
    have hsame := h longAddress hascii longAddress_length.le
    rw [hgo, hjs] at hsame
    cases hsame
  · intro h
    have hkelvin : kelvinAddress =
        ['A', 'G', 'O', 'R', 'I', 'C', '1', kelvinSign,
         'Q', 'V', 'X', '5', 'Y', 'R', 'L'] :=
      congrArg₂ (fun s t => s ++ kelvinSign :: t) String.toList_ofList String.toList_ofList
    have hsame := h kelvinAddress (by rw [hkelvin]; decide)
    rw [hkelvin] at hsame
    exact absurd hsame (by decide +kernel)

end Bip173

end AgoricSdk.AddressHooks
