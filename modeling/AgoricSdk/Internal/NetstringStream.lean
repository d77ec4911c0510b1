import AgoricSdk.Internal.Netstring
import AgoricSdk.Lib.Framing

/-!
What the decoder stream makes of bytes that arrive in any chunks. It reads the same netstrings
whenever they arrive, but an error drops those decoded from the same buffer, and a size need not
be written as `encode` writes it.
-/

namespace AgoricSdk.Netstring

open DelimitedText Framing
open SwingSet (JSString decimal decimal_isDigit)
open Comms (parseInt parseInt_decimal)

/-- A netstring as it stands in the stream. -/
structure SizedPayload where
  sizeText : Bytes
  payload : Bytes
  deriving DecidableEq

def SizedPayload.bytes (netstring : SizedPayload) : Bytes :=
  netstring.sizeText ++ COLON :: netstring.payload ++ [COMMA]

theorem SizedPayload.bytes_append (netstring : SizedPayload) (t : Bytes) :
    netstring.bytes ++ t = netstring.sizeText ++ COLON :: (netstring.payload ++ COMMA :: t) := by
  simp [SizedPayload.bytes]

/-- `decode` takes it for a netstring. -/
structure SizedPayload.Readable (optMaxChunkSize : Option ℚ) (netstring : SizedPayload) :
    Prop where
  delimited : COLON ∉ netstring.sizeText
  size : parseSize (toUtf8 netstring.sizeText) = some netstring.payload.length
  withinLimit : WithinLimit optMaxChunkSize netstring.payload.length

/-- Its size is written as `encode` writes it. -/
def SizedPayload.Canonical (netstring : SizedPayload) : Prop :=
  netstring.sizeText = bufferFrom (decimal netstring.payload.length)

/-- What no byte behind it can make a netstring. -/
def Malformed (optMaxChunkSize : Option ℚ) (s : Bytes) : Prop :=
  ∃ sizeText after, s = sizeText ++ COLON :: after ∧ COLON ∉ sizeText ∧
    ∀ size, parseSize (toUtf8 sizeText) = some size → WithinLimit optMaxChunkSize size →
      ∃ b ∈ after[size]?, b ≠ COMMA

section Reading

def readNetstring (optMaxChunkSize : Option ℚ) (s : Bytes) :
    Reading UInt8 SizedPayload DecodeError :=
  match cutAt COLON s with
  | none => .more
  | some (sizeText, after) =>
    match parseSize (toUtf8 sizeText) with
    | none => .refused (.unparsableSize (toUtf8 sizeText))
    | some size =>
      if ¬ WithinLimit optMaxChunkSize size then
        .refused (.exceedsLimit size (optMaxChunkSize.getD 0))
      else
        match after[size]? with
        | none => .more
        | some b =>
          if b ≠ COMMA then .refused .notTerminated
          else .frame ⟨sizeText, after.take size⟩ (after.drop (size + 1))

variable {optMaxChunkSize : Option ℚ} {s : Bytes}

theorem readNetstring_frame {netstring : SizedPayload} {rest : Bytes} :
    readNetstring optMaxChunkSize s = .frame netstring rest ↔
      s = netstring.bytes ++ rest ∧ netstring.Readable optMaxChunkSize := by
  unfold readNetstring
  constructor
  · intro h
    split at h
    case h_1 => cases h
    case h_2 sizeText after hcut =>
      obtain ⟨rfl, hdelimited⟩ := cutAt_eq_some.mp hcut
      split at h
      case h_1 => cases h
      case h_2 size hsize =>
        split at h
        case isTrue => cases h
        case isFalse hlimit =>
          split at h
          case h_1 => cases h
          case h_2 b hb =>
            split at h
            case isTrue => cases h
            case isFalse hcomma =>
              cases h
              obtain ⟨hlt, hget⟩ := List.getElem?_eq_some_iff.mp hb
              have hlength : (after.take size).length = size := by
                rw [List.length_take]
                omega
              have hafter : after = after.take size ++ COMMA :: after.drop (size + 1) := by
                rw [← not_not.mp hcomma, ← hget, List.getElem_cons_drop, List.take_append_drop]
              refine ⟨?_, hdelimited, ?_, ?_⟩
              · unfold SizedPayload.bytes
                nth_rewrite 1 [hafter]
                simp
              · rw [hsize, hlength]
              · rw [hlength]
                exact not_not.mp hlimit
  · rintro ⟨rfl, hreadable⟩
    rw [SizedPayload.bytes_append, cutAt_append hreadable.delimited]
    dsimp only
    rw [hreadable.size]
    dsimp only
    rw [if_neg (not_not.mpr hreadable.withinLimit), List.getElem?_append_right le_rfl,
      Nat.sub_self, List.getElem?_cons_zero]
    dsimp only
    rw [if_neg (not_not.mpr rfl), List.take_left, ← List.drop_drop, List.drop_left]
    rfl

theorem readNetstring_refused {error : DecodeError}
    (h : readNetstring optMaxChunkSize s = .refused error) (t : Bytes) :
    readNetstring optMaxChunkSize (s ++ t) = .refused error ∧ Malformed optMaxChunkSize s := by
  unfold readNetstring at h ⊢
  split at h
  case h_1 => cases h
  case h_2 sizeText after hcut =>
    obtain ⟨rfl, hdelimited⟩ := cutAt_eq_some.mp hcut
    rw [List.append_assoc, List.cons_append, cutAt_append hdelimited]
    dsimp only
    split at h
    case h_1 hsize =>
      refine ⟨?_, sizeText, after, rfl, hdelimited, fun size hsome => ?_⟩
      · exact h
      · rw [hsize] at hsome
        cases hsome
    case h_2 size hsize =>
      split at h
      case isTrue hlimit =>
        refine ⟨?_, sizeText, after, rfl, hdelimited, fun size' hsome hwithin => ?_⟩
        · rw [if_pos hlimit]
          exact h
        · rw [hsize] at hsome
          cases hsome
          exact absurd hwithin hlimit
      case isFalse hlimit =>
        rw [if_neg hlimit]
        split at h
        case h_1 => cases h
        case h_2 b hb =>
          split at h
          case isFalse => cases h
          case isTrue hcomma =>
            refine ⟨?_, sizeText, after, rfl, hdelimited, fun size' hsome hwithin => ?_⟩
            · rw [List.getElem?_append_left (List.getElem?_eq_some_iff.mp hb).1, hb]
              dsimp only
              rw [if_pos hcomma]
              exact h
            · rw [hsize] at hsome
              cases hsome
              exact ⟨b, hb, hcomma⟩

theorem Malformed.not_more (h : Malformed optMaxChunkSize s) :
    readNetstring optMaxChunkSize s ≠ .more := by
  obtain ⟨sizeText, after, rfl, hdelimited, hmalformed⟩ := h
  unfold readNetstring
  rw [cutAt_append hdelimited]
  dsimp only
  split
  case h_1 => exact nofun
  case h_2 size hsize =>
    split
    case isTrue => exact nofun
    case isFalse hlimit =>
      obtain ⟨b, hb, hcomma⟩ := hmalformed size hsize (not_not.mp hlimit)
      rw [hb]
      dsimp only
      rw [if_pos hcomma]
      exact nofun

theorem Malformed.not_frame (h : Malformed optMaxChunkSize s) (netstring : SizedPayload)
    (rest : Bytes) : readNetstring optMaxChunkSize s ≠ .frame netstring rest := by
  intro hread
  obtain ⟨hs, hreadable⟩ := readNetstring_frame.mp hread
  obtain ⟨sizeText, after, rfl, hdelimited, hmalformed⟩ := h
  have hcut := congrArg (cutAt COLON) hs
  rw [SizedPayload.bytes_append, cutAt_append hdelimited,
    cutAt_append hreadable.delimited] at hcut
  obtain ⟨rfl, rfl⟩ := Prod.mk.inj (Option.some.inj hcut)
  obtain ⟨b, hb, hcomma⟩ := hmalformed _ hreadable.size hreadable.withinLimit
  rw [List.getElem?_append_right le_rfl, Nat.sub_self] at hb
  exact hcomma (Option.some.inj hb).symm

/-- How `decode` reads. -/
def netstringReader (optMaxChunkSize : Option ℚ) : FrameReader UInt8 SizedPayload DecodeError where
  read := readNetstring optMaxChunkSize
  shrinks h := by
    obtain ⟨rfl, -⟩ := readNetstring_frame.mp h
    simp only [SizedPayload.bytes, List.length_append, List.length_cons, List.length_nil]
    omega
  frame_append h t := by
    obtain ⟨rfl, hreadable⟩ := readNetstring_frame.mp h
    rw [List.append_assoc]
    exact readNetstring_frame.mpr ⟨rfl, hreadable⟩
  refused_append h t := (readNetstring_refused h t).1

end Reading

section Decode

variable {optMaxChunkSize : Option ℚ}

theorem subarray_append (before middle after : Bytes) {start stop : ℕ}
    (hstart : start = before.length)
    (hstop : stop = before.length + middle.length) :
    subarray (before ++ (middle ++ after)) start stop = middle := by
  unfold subarray
  rw [hstart, hstop, List.drop_left, Nat.add_sub_cancel_left, List.take_left]

theorem decodeLoop_succ (before s : Bytes) (fuel : ℕ) (payloads : List Bytes) :
    decodeLoop (before ++ s) optMaxChunkSize (fuel + 1) before.length payloads =
      match readNetstring optMaxChunkSize s with
      | .more => .ok ⟨s, payloads⟩
      | .refused error => .error ⟨error, before.length⟩
      | .frame netstring _ =>
        decodeLoop (before ++ s) optMaxChunkSize fuel (before ++ netstring.bytes).length
          (payloads ++ [netstring.payload]) := by
  rw [decodeLoop, readNetstring, indexOf, List.drop_left, findIdx?_eq_cutAt]
  cases hcut : cutAt COLON s with
  | none => rfl
  | some cut =>
    obtain ⟨sizeText, after⟩ := cut
    obtain ⟨rfl, -⟩ := cutAt_eq_some.mp hcut
    dsimp only [Option.map_some]
    rw [subarray_append before sizeText (COLON :: after) rfl rfl]
    cases hsize : parseSize (toUtf8 sizeText) with
    | none => rfl
    | some size =>
      dsimp only
      by_cases hlimit : WithinLimit optMaxChunkSize size
      · rw [if_neg (not_not.mpr hlimit), if_neg (not_not.mpr hlimit)]
        have hdata : before ++ (sizeText ++ COLON :: after) =
            (before ++ sizeText ++ [COLON]) ++ after := by simp
        have hcolon : before.length + sizeText.length + 1 =
            (before ++ sizeText ++ [COLON]).length := by simp [Nat.add_assoc]
        have hget : (before ++ (sizeText ++ COLON :: after))[before.length + sizeText.length + 1 +
            size]? = after[size]? := by
          rw [hdata, hcolon, List.getElem?_append_right (Nat.le_add_right _ _),
            Nat.add_sub_cancel_left]
        have hlength : (before ++ (sizeText ++ COLON :: after)).length <
            before.length + sizeText.length + 1 + size + 1 ↔ after.length ≤ size := by
          rw [hdata, List.length_append, hcolon]
          omega
        rw [hget]
        cases hb : after[size]? with
        | none => rw [if_pos (hlength.mpr (List.getElem?_eq_none_iff.mp hb))]
        | some b =>
          have hlt := (List.getElem?_eq_some_iff.mp hb).1
          rw [if_neg (mt hlength.mp (not_le.mpr hlt))]
          dsimp only
          by_cases hcomma : b = COMMA
          · rw [if_neg (not_not.mpr (congrArg some hcomma)), if_neg (not_not.mpr hcomma)]
            have htake : (after.take size).length = size := by
              rw [List.length_take]
              omega
            have hpayload : subarray (before ++ (sizeText ++ COLON :: after))
                (before.length + sizeText.length + 1)
                (before.length + sizeText.length + 1 + size) = after.take size := by
              rw [hdata]
              nth_rewrite 1 [← List.take_append_drop size after]
              apply subarray_append _ _ _ hcolon
              rw [htake, hcolon]
            have hstart : before.length + sizeText.length + 1 + size + 1 =
                (before ++ SizedPayload.bytes ⟨sizeText, after.take size⟩).length := by
              simp only [SizedPayload.bytes, List.length_append, List.length_cons, htake,
                List.length_nil]
              omega
            dsimp only
            rw [hpayload, hstart]
          · rw [if_pos fun heq => hcomma (Option.some.inj heq), if_pos hcomma]
      · rw [if_pos hlimit, if_pos hlimit]

theorem decodeLoop_reads (optMaxChunkSize : Option ℚ) {fuel : ℕ} (before s : Bytes)
    (payloads : List Bytes)
    (hfuel : s.length < fuel) :
    ∃ netstrings t, Reads (netstringReader optMaxChunkSize) s netstrings t ∧
      match decodeLoop (before ++ s) optMaxChunkSize fuel before.length payloads with
      | .ok decoded => readNetstring optMaxChunkSize t = .more ∧ decoded.leftover = t ∧
          decoded.payloads = payloads ++ netstrings.map (·.payload)
      | .error fault => readNetstring optMaxChunkSize t = .refused fault.error ∧
          fault.start + t.length = before.length + s.length := by
  induction fuel generalizing before s payloads with
  | zero => exact absurd hfuel (Nat.not_lt_zero _)
  | succ fuel ih =>
    rw [decodeLoop_succ]
    cases hread : readNetstring optMaxChunkSize s with
    | more => exact ⟨[], s, .nil s, hread, rfl, (List.append_nil _).symm⟩
    | refused error => exact ⟨[], s, .nil s, hread, rfl⟩
    | frame netstring rest =>
      obtain ⟨rfl, -⟩ := readNetstring_frame.mp hread
      have hshrinks := (netstringReader optMaxChunkSize).shrinks hread
      obtain ⟨netstrings, t, hreads, hresult⟩ := ih (before ++ netstring.bytes) rest
        (payloads ++ [netstring.payload]) (by omega)
      refine ⟨netstring :: netstrings, t, .cons hread hreads, ?_⟩
      dsimp only
      rw [← List.append_assoc]
      cases hloop : decodeLoop (before ++ netstring.bytes ++ rest) optMaxChunkSize fuel
          (before ++ netstring.bytes).length (payloads ++ [netstring.payload]) with
      | ok decoded =>
        rw [hloop] at hresult
        obtain ⟨hmore, hleftover, hpayloads⟩ := hresult
        refine ⟨hmore, hleftover, ?_⟩
        rw [hpayloads, List.append_assoc]
        rfl
      | error fault =>
        rw [hloop] at hresult
        obtain ⟨hrefused, hstart⟩ := hresult
        refine ⟨hrefused, ?_⟩
        rw [hstart, List.length_append, List.length_append]
        omega

theorem decode_reads (optMaxChunkSize : Option ℚ) (data : Bytes) :
    ∃ netstrings t, Reads (netstringReader optMaxChunkSize) data netstrings t ∧
      match decode data optMaxChunkSize with
      | .ok decoded => readNetstring optMaxChunkSize t = .more ∧ decoded.leftover = t ∧
          decoded.payloads = netstrings.map (·.payload)
      | .error fault => readNetstring optMaxChunkSize t = .refused fault.error ∧
          fault.start + t.length = data.length := by
  have h := decodeLoop_reads optMaxChunkSize [] data [] (Nat.lt_succ_self _)
  simp only [List.nil_append, List.length_nil, Nat.zero_add] at h
  exact h

end Decode

section Stream

variable {optMaxChunkSize : Option ℚ}

theorem netstringDecoderStream_reads (optMaxChunkSize : Option ℚ) (chunks : List Bytes) :
    ∃ netstrings t, Reads (netstringReader optMaxChunkSize) chunks.flatten netstrings t ∧
      match (netstringDecoderStream optMaxChunkSize chunks).fault with
      | none => readNetstring optMaxChunkSize t = .more ∧
          (netstringDecoderStream optMaxChunkSize chunks).buffered = t ∧
          (netstringDecoderStream optMaxChunkSize chunks).pushed = netstrings.map (·.payload) ∧
          (netstringDecoderStream optMaxChunkSize chunks).consumed + t.length =
            chunks.flatten.length
      | some fault => readNetstring optMaxChunkSize t = .refused fault.error ∧
          List.IsPrefix (netstringDecoderStream optMaxChunkSize chunks).pushed
            (netstrings.map (·.payload)) ∧
          fault.start + t.length = chunks.flatten.length := by
  induction chunks using List.reverseRecOn with
  | nil => exact ⟨[], [], .nil [], rfl, rfl, rfl, rfl⟩
  | append_singleton chunks chunk ih =>
    obtain ⟨netstrings, t, hreads, hstream⟩ := ih
    have hwrite : netstringDecoderStream optMaxChunkSize (chunks ++ [chunk]) =
        write optMaxChunkSize (netstringDecoderStream optMaxChunkSize chunks) chunk := by
      unfold netstringDecoderStream
      rw [List.foldl_append]
      rfl
    have hflatten : (chunks ++ [chunk]).flatten = chunks.flatten ++ chunk := by simp
    rw [hwrite, hflatten]
    generalize netstringDecoderStream optMaxChunkSize chunks = stream at hstream ⊢
    have happend := hreads.append chunk
    cases hfault : stream.fault with
    | some fault =>
      rw [hfault] at hstream
      obtain ⟨hrefused, hpushed, hstart⟩ := hstream
      rw [write, hfault, Option.isSome_some, if_pos rfl, hfault]
      refine ⟨netstrings, t ++ chunk, happend, (readNetstring_refused hrefused chunk).1, hpushed,
        ?_⟩
      rw [List.length_append, List.length_append]
      omega
    | none =>
      rw [hfault] at hstream
      obtain ⟨-, hbuffered, hpushed, hconsumed⟩ := hstream
      obtain ⟨others, t', hothers, hdecode⟩ :=
        decode_reads optMaxChunkSize (t ++ chunk)
      have hlength := hothers.length_le
      refine ⟨netstrings ++ others, t', happend.trans hothers, ?_⟩
      rw [write, hfault, Option.isSome_none, if_neg Bool.false_ne_true, transform, hbuffered]
      rw [List.length_append] at hlength
      cases hdecoded : decode (t ++ chunk) optMaxChunkSize with
      | ok decoded =>
        rw [hdecoded] at hdecode
        obtain ⟨hmore, hleftover, hpayloads⟩ := hdecode
        dsimp only
        rw [hfault]
        refine ⟨hmore, hleftover, ?_, ?_⟩
        · rw [hpushed, hpayloads, List.map_append]
        · rw [hleftover, List.length_append, List.length_append]
          omega
      | error fault =>
        rw [hdecoded] at hdecode
        obtain ⟨hrefused, hstart⟩ := hdecode
        refine ⟨hrefused, ?_, ?_⟩
        · rw [hpushed, List.map_append]
          exact List.prefix_append _ _
        · change stream.consumed + fault.start + t'.length = _
          rw [List.length_append] at hstart ⊢
          omega

end Stream

section Encode

theorem utf8Decode_ascii {s : JSString} (h : ∀ c ∈ s, c.toNat ≤ 0x7F) :
    toUtf8 (bufferFrom s) = s := by
  induction s with
  | nil => rfl
  | cons c s ih =>
    obtain ⟨hc, hs⟩ := List.forall_mem_cons.mp h
    have hbyte : String.utf8EncodeChar c = [c.val.toUInt8] :=
      String.utf8EncodeChar_eq_singleton (Char.utf8Size_eq_one_iff.mpr hc)
    have hnat : (c.val.toUInt8).toNat = c.toNat := by
      rw [UInt32.toNat_toUInt8]
      exact Nat.mod_eq_of_lt (by change c.toNat < _; omega)
    have hstep : utf8Step {} c.toNat = ([c], {}) := by
      rw [utf8Step, if_pos rfl, utf8Lead, if_pos hc, Char.ofNat_toNat]
    change utf8Decode {} (String.utf8EncodeChar c ++ bufferFrom s) = _
    rw [hbyte, List.cons_append, List.nil_append, utf8Decode]
    rw [hnat, hstep]
    exact congrArg (c :: ·) (ih hs)

theorem decimal_ascii {n : ℕ} {c : Char} (h : c ∈ decimal n) : c.toNat ≤ 0x39 ∧ 0x30 ≤ c.toNat := by
  have hdigit := decimal_isDigit h
  rw [Char.isDigit, Bool.and_eq_true, decide_eq_true_eq, decide_eq_true_eq] at hdigit
  exact ⟨hdigit.2, hdigit.1⟩

theorem parseSize_decimal (n : ℕ) : parseSize (toUtf8 (bufferFrom (decimal n))) = some n := by
  rw [utf8Decode_ascii fun c hc => (decimal_ascii hc).1.trans (by decide), parseSize,
    parseInt_decimal]

theorem COLON_notMem_decimal (n : ℕ) : COLON ∉ bufferFrom (decimal n) := by
  intro h
  obtain ⟨c, hc, hbyte⟩ := List.mem_flatMap.mp h
  obtain ⟨hupper, hlower⟩ := decimal_ascii hc
  have hsize : c.utf8Size = 1 :=
    Char.utf8Size_eq_one_iff.mpr (show c.toNat ≤ 127 by omega)
  rw [String.utf8EncodeChar_eq_singleton hsize, List.mem_singleton] at hbyte
  have hnat := congrArg UInt8.toNat hbyte
  rw [UInt32.toNat_toUInt8, Nat.mod_eq_of_lt (by change c.toNat < _; omega)] at hnat
  change 58 = c.toNat at hnat
  omega

/-- A payload with its size, as `encode` writes them. -/
def sized (data : Bytes) : SizedPayload := ⟨bufferFrom (decimal data.length), data⟩

theorem encode_eq (data : Bytes) : encode data = (sized data).bytes := by
  have happend : bufferFrom (decimal data.length ++ [':']) =
      bufferFrom (decimal data.length) ++ [COLON] := by
    unfold bufferFrom
    rw [List.flatMap_append]
    rfl
  rw [encode, happend, sized, SizedPayload.bytes, List.append_assoc (bufferFrom _)]
  rfl

theorem SizedPayload.Canonical.encode {netstring : SizedPayload} (h : netstring.Canonical) :
    encode netstring.payload = netstring.bytes := by
  rw [encode_eq, sized, ← h]

theorem sized_readable {optMaxChunkSize : Option ℚ} {data : Bytes}
    (h : WithinLimit optMaxChunkSize data.length) : (sized data).Readable optMaxChunkSize where
  delimited := COLON_notMem_decimal _
  size := parseSize_decimal _
  withinLimit := h

theorem canonical_of_encode {netstrings : List SizedPayload}
    (hdelimited : ∀ netstring ∈ netstrings, COLON ∉ netstring.sizeText)
    (h : (netstrings.map (·.payload)).flatMap encode = netstrings.flatMap SizedPayload.bytes) :
    ∀ netstring ∈ netstrings, netstring.Canonical := by
  induction netstrings with
  | nil => exact fun _ h => absurd h List.not_mem_nil
  | cons netstring netstrings ih =>
    obtain ⟨hfirst, hdelimited⟩ := List.forall_mem_cons.mp hdelimited
    rw [List.map_cons, List.flatMap_cons, List.flatMap_cons, encode_eq] at h
    have hcut := congrArg (cutAt COLON) h
    rw [SizedPayload.bytes_append, SizedPayload.bytes_append, sized,
      cutAt_append (COLON_notMem_decimal _), cutAt_append hfirst] at hcut
    obtain ⟨hsize, hrest⟩ := Prod.mk.inj (Option.some.inj hcut)
    have htail := (List.cons.inj (List.append_cancel_left hrest)).2
    exact List.forall_mem_cons.mpr ⟨hsize.symm, ih hdelimited htail⟩

end Encode

section RoundTrip

variable {optMaxChunkSize : Option ℚ}

theorem reads_bytes {s t : Bytes} {netstrings : List SizedPayload}
    (h : Reads (netstringReader optMaxChunkSize) s netstrings t) :
    s = netstrings.flatMap SizedPayload.bytes ++ t ∧
      ∀ netstring ∈ netstrings, netstring.Readable optMaxChunkSize := by
  induction h with
  | nil s => exact ⟨rfl, fun _ h => absurd h List.not_mem_nil⟩
  | cons hread h ih =>
    obtain ⟨rfl, hreadable⟩ := readNetstring_frame.mp hread
    obtain ⟨rfl, hall⟩ := ih
    exact ⟨by rw [List.flatMap_cons, List.append_assoc], List.forall_mem_cons.mpr ⟨hreadable, hall⟩⟩

theorem reads_of_readable {netstrings : List SizedPayload}
    (h : ∀ netstring ∈ netstrings, netstring.Readable optMaxChunkSize) (t : Bytes) :
    Reads (netstringReader optMaxChunkSize) (netstrings.flatMap SizedPayload.bytes ++ t)
      netstrings t := by
  induction netstrings with
  | nil => exact .nil t
  | cons netstring netstrings ih =>
    obtain ⟨hfirst, hall⟩ := List.forall_mem_cons.mp h
    rw [List.flatMap_cons, List.append_assoc]
    exact .cons (readNetstring_frame.mpr ⟨rfl, hfirst⟩) (ih hall)

theorem reads_encode {payloads : List Bytes}
    (h : ∀ payload ∈ payloads, WithinLimit optMaxChunkSize payload.length) (t : Bytes) :
    Reads (netstringReader optMaxChunkSize) (payloads.flatMap encode ++ t) (payloads.map sized)
      t := by
  have hencoded : payloads.flatMap encode = (payloads.map sized).flatMap SizedPayload.bytes := by
    rw [List.flatMap_map]
    exact List.flatMap_congr fun payload _ => encode_eq payload
  rw [hencoded]
  apply reads_of_readable
  intro netstring hmem
  obtain ⟨payload, hpayload, rfl⟩ := List.mem_map.mp hmem
  exact sized_readable (h payload hpayload)

theorem map_payload_sized (payloads : List Bytes) :
    (payloads.map sized).map (·.payload) = payloads := by
  rw [List.map_map]
  exact List.map_id payloads

/-- What the stream promises about some bytes, however they are split into chunks. -/
structure RoundTrips (optMaxChunkSize : Option ℚ) (bytes : Bytes) : Prop where
  /-- The payloads and the error do not depend on the chunks. -/
  independent : ∀ chunks chunks', chunks.flatten = bytes → chunks'.flatten = bytes →
    (netstringDecoderStream optMaxChunkSize chunks).pushed =
        (netstringDecoderStream optMaxChunkSize chunks').pushed ∧
      (netstringDecoderStream optMaxChunkSize chunks).fault =
        (netstringDecoderStream optMaxChunkSize chunks').fault
  /-- All well-formed netstrings at the front are emitted. -/
  complete : ∀ chunks payloads rest, chunks.flatten = bytes →
    bytes = payloads.flatMap encode ++ rest →
    (∀ payload ∈ payloads, WithinLimit optMaxChunkSize payload.length) →
    List.IsPrefix payloads (netstringDecoderStream optMaxChunkSize chunks).pushed
  /-- The payloads encode to the bytes that were consumed. -/
  canonical : ∀ chunks, chunks.flatten = bytes →
    (netstringDecoderStream optMaxChunkSize chunks).pushed.flatMap encode =
      bytes.take (netstringDecoderStream optMaxChunkSize chunks).point

/-- The bytes start with no netstring whose size is written otherwise than by `encode`, and what
is malformed stands at their very front. -/
def WellWritten (optMaxChunkSize : Option ℚ) (bytes : Bytes) : Prop :=
  ∀ (netstrings : List SizedPayload) (rest : Bytes),
    bytes = netstrings.flatMap SizedPayload.bytes ++ rest →
    (∀ netstring ∈ netstrings, netstring.Readable optMaxChunkSize) →
    (∀ netstring ∈ netstrings, netstring.Canonical) ∧
      (Malformed optMaxChunkSize rest → netstrings = [])

theorem stops_of_more {t : Bytes} (h : readNetstring optMaxChunkSize t = .more) :
    (netstringReader optMaxChunkSize).Stops t := by
  intro netstring rest hread
  change readNetstring optMaxChunkSize t = _ at hread
  rw [h] at hread
  cases hread

theorem stops_of_refused {t : Bytes} {error : DecodeError}
    (h : readNetstring optMaxChunkSize t = .refused error) :
    (netstringReader optMaxChunkSize).Stops t := by
  intro netstring rest hread
  change readNetstring optMaxChunkSize t = _ at hread
  rw [h] at hread
  cases hread

theorem netstringDecoderStream_wellWritten {netstrings : List SizedPayload} {t : Bytes}
    {chunks : List Bytes} (hwritten : WellWritten optMaxChunkSize chunks.flatten)
    (hreads : Reads (netstringReader optMaxChunkSize) chunks.flatten netstrings t)
    (hstop : (netstringReader optMaxChunkSize).Stops t) :
    (netstringDecoderStream optMaxChunkSize chunks).pushed = netstrings.map (·.payload) ∧
      (netstringDecoderStream optMaxChunkSize chunks).point + t.length = chunks.flatten.length ∧
      (netstringDecoderStream optMaxChunkSize chunks).fault =
        match readNetstring optMaxChunkSize t with
        | .refused error => some ⟨error, 0⟩
        | _ => none := by
  obtain ⟨netstrings', t', hreads', hstream⟩ :=
    netstringDecoderStream_reads optMaxChunkSize chunks
  unfold DecoderStream.point
  cases hfault : (netstringDecoderStream optMaxChunkSize chunks).fault with
  | none =>
    rw [hfault] at hstream
    obtain ⟨hmore, -, hpushed, hconsumed⟩ := hstream
    obtain ⟨rfl, rfl⟩ := hreads.unique hstop hreads' (stops_of_more hmore)
    rw [hmore]
    exact ⟨hpushed, hconsumed, rfl⟩
  | some fault =>
    rw [hfault] at hstream
    obtain ⟨hrefused, hpushed, hstart⟩ := hstream
    obtain ⟨rfl, rfl⟩ := hreads.unique hstop hreads' (stops_of_refused hrefused)
    obtain ⟨hbytes, hreadable⟩ := reads_bytes hreads
    obtain rfl := (hwritten netstrings t hbytes hreadable).2 (readNetstring_refused hrefused []).2
    have hzero : fault.start = 0 := by
      rw [hbytes, List.flatMap_nil, List.nil_append] at hstart
      omega
    rw [hrefused]
    refine ⟨List.prefix_nil.mp hpushed, hstart, ?_⟩
    rw [← hzero]

theorem netstringDecoderStream_first {bytes : Bytes} {fault : Fault}
    (h : (netstringDecoderStream optMaxChunkSize [bytes]).fault = some fault) :
    (netstringDecoderStream optMaxChunkSize [bytes]).pushed = [] := by
  have hwrite : netstringDecoderStream optMaxChunkSize [bytes] =
      transform optMaxChunkSize {} bytes := rfl
  rw [hwrite, transform] at h ⊢
  dsimp only at h ⊢
  cases hdecode : decode ([] ++ bytes) optMaxChunkSize with
  | ok decoded =>
    rw [hdecode] at h
    cases h
  | error fault => rfl

theorem RoundTrips.wellWritten {bytes : Bytes} (h : RoundTrips optMaxChunkSize bytes) :
    WellWritten optMaxChunkSize bytes := by
  intro netstrings rest hbytes hreadable
  obtain ⟨others, t, hothers, hstop⟩ := (netstringReader optMaxChunkSize).exists_stop rest
  have hreads : Reads (netstringReader optMaxChunkSize) bytes (netstrings ++ others) t := by
    rw [hbytes]
    exact (reads_of_readable hreadable rest).trans hothers
  obtain ⟨hall, hallReadable⟩ := reads_bytes hreads
  have hflatten : [bytes].flatten = bytes := by simp
  obtain ⟨netstrings', t', hreads', hstream⟩ :=
    netstringDecoderStream_reads optMaxChunkSize [bytes]
  have hcanonical := h.canonical [bytes] hflatten
  rw [hflatten] at hreads' hstream
  have htake : ∀ n, n + t.length = bytes.length →
      bytes.take n = (netstrings ++ others).flatMap SizedPayload.bytes := by
    intro n hn
    rw [hall, List.take_left']
    rw [hall, List.length_append] at hn
    omega
  unfold DecoderStream.point at hcanonical
  cases hfault : (netstringDecoderStream optMaxChunkSize [bytes]).fault with
  | none =>
    rw [hfault] at hstream hcanonical
    obtain ⟨hmore, -, hpushed, hconsumed⟩ := hstream
    obtain ⟨rfl, rfl⟩ := hreads.unique hstop hreads' (stops_of_more hmore)
    rw [hpushed, htake _ hconsumed] at hcanonical
    have hwritten := canonical_of_encode
      (fun netstring hmem => (hallReadable netstring hmem).delimited)
      hcanonical
    refine ⟨fun netstring hmem => hwritten netstring (List.mem_append_left _ hmem), ?_⟩
    intro hmalformed
    -- the rest holds no netstring to stop behind, and `decode` would have refused it
    cases hothers with
    | nil => exact absurd hmore hmalformed.not_more
    | cons hread _ => exact absurd hread (hmalformed.not_frame _ _)
  | some fault =>
    rw [hfault] at hstream hcanonical
    obtain ⟨hrefused, -, hstart⟩ := hstream
    obtain ⟨rfl, rfl⟩ := hreads.unique hstop hreads' (stops_of_refused hrefused)
    rw [netstringDecoderStream_first hfault, List.flatMap_nil, htake _ hstart] at hcanonical
    have hnil : netstrings = [] := by
      cases netstrings with
      | nil => rfl
      | cons netstring netstrings =>
        rw [List.cons_append, List.flatMap_cons, SizedPayload.bytes_append] at hcanonical
        exact absurd hcanonical.symm (by simp)
    rw [hnil]
    exact ⟨fun _ hmem => absurd hmem List.not_mem_nil, fun _ => rfl⟩

theorem WellWritten.roundTrips {bytes : Bytes} (h : WellWritten optMaxChunkSize bytes) :
    RoundTrips optMaxChunkSize bytes := by
  obtain ⟨netstrings, t, hreads, hstop⟩ := (netstringReader optMaxChunkSize).exists_stop bytes
  obtain ⟨hbytes, hreadable⟩ := reads_bytes hreads
  have hcanonical := (h netstrings t hbytes hreadable).1
  have hencode : (netstrings.map (·.payload)).flatMap encode =
      netstrings.flatMap SizedPayload.bytes := by
    rw [List.flatMap_map]
    exact List.flatMap_congr fun netstring hmem => (hcanonical netstring hmem).encode
  have hstream : ∀ chunks : List Bytes, chunks.flatten = bytes → _ := fun chunks hchunks =>
    netstringDecoderStream_wellWritten (hchunks ▸ h) (hchunks ▸ hreads) hstop
  constructor
  · intro chunks chunks' hchunks hchunks'
    obtain ⟨hpushed, -, hfault⟩ := hstream chunks hchunks
    obtain ⟨hpushed', -, hfault'⟩ := hstream chunks' hchunks'
    exact ⟨hpushed.trans hpushed'.symm, hfault.trans hfault'.symm⟩
  · intro chunks payloads rest hchunks hpayloads hlimit
    have hfront := reads_encode hlimit rest
    rw [← hpayloads] at hfront
    obtain ⟨others, rfl, -⟩ := hreads.complete hstop hfront
    rw [(hstream chunks hchunks).1, List.map_append, map_payload_sized]
    exact List.prefix_append _ _
  · intro chunks hchunks
    obtain ⟨hpushed, hpoint, -⟩ := hstream chunks hchunks
    rw [hpushed, hencode]
    have htake : (netstrings.flatMap SizedPayload.bytes).length =
        (netstringDecoderStream optMaxChunkSize chunks).point := by
      rw [hchunks, hbytes, List.length_append] at hpoint
      omega
    rw [← htake, hbytes, List.take_left]

/-- Bytes written as `encode` writes them are decoded alike in any chunks. Otherwise a whole
buffer shows what is lost or read too leniently. -/
theorem netstrings_roundTrip (optMaxChunkSize : Option ℚ) (bytes : Bytes) :
    (RoundTrips optMaxChunkSize bytes ↔ WellWritten optMaxChunkSize bytes) ∧
      ∀ payloads chunks, bytes = payloads.flatMap encode → chunks.flatten = bytes →
        (∀ payload ∈ payloads, WithinLimit optMaxChunkSize payload.length) →
        (netstringDecoderStream optMaxChunkSize chunks).pushed = payloads ∧
          (netstringDecoderStream optMaxChunkSize chunks).fault = none ∧
          (netstringDecoderStream optMaxChunkSize chunks).buffered = [] := by
  refine ⟨⟨RoundTrips.wellWritten, WellWritten.roundTrips⟩, ?_⟩
  intro payloads chunks hbytes hchunks hlimit
  have hreads := reads_encode hlimit []
  rw [List.append_nil, ← hbytes, ← hchunks] at hreads
  have hmore : readNetstring optMaxChunkSize [] = .more := rfl
  obtain ⟨netstrings, t, hreads', hstream⟩ := netstringDecoderStream_reads optMaxChunkSize chunks
  cases hfault : (netstringDecoderStream optMaxChunkSize chunks).fault with
  | none =>
    rw [hfault] at hstream
    obtain ⟨hstop, hbuffered, hpushed, -⟩ := hstream
    obtain ⟨rfl, rfl⟩ := hreads.unique (stops_of_more hmore) hreads' (stops_of_more hstop)
    rw [hpushed, map_payload_sized]
    exact ⟨rfl, rfl, hbuffered⟩
  | some fault =>
    rw [hfault] at hstream
    obtain ⟨-, rfl⟩ := hreads.unique (stops_of_more hmore) hreads' (stops_of_refused hstream.1)
    have hrefused := hstream.1
    rw [hmore] at hrefused
    cases hrefused

/-- In one chunk the payload in front of the malformed size is lost. -/
theorem netstrings_lostPayload :
    ¬ ∀ (optMaxChunkSize : Option ℚ) (bytes : Bytes), RoundTrips optMaxChunkSize bytes := by
  intro h
  have hlost := (h none (bufferFrom "1:a,x:".toList)).independent
    [bufferFrom "1:a,x:".toList] [bufferFrom "1:a,".toList, bufferFrom "x:".toList] (by decide)
    (by decide)
  exact absurd hlost.1 (by decide +kernel)

end RoundTrip

end AgoricSdk.Netstring
