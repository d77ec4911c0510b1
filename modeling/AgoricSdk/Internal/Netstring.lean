import AgoricSdk.Comms.WireFormat

/-!
The netstrings in which a worker and the kernel exchange their messages, and the stream that
takes them apart as the bytes arrive.
-/

namespace AgoricSdk.Netstring

open SwingSet (JSString decimal)
open Comms (parseInt)

abbrev Bytes := List UInt8

def COLON : UInt8 := 58

def COMMA : UInt8 := 44

section Buffers

/-- `Buffer.from` of a string. -/
def bufferFrom (s : JSString) : Bytes := s.flatMap String.utf8EncodeChar

/-- A character of which some bytes were read, with the bounds of the next byte. -/
structure Utf8State where
  codePoint : ℕ := 0
  needed : ℕ := 0
  lower : ℕ := 0x80
  upper : ℕ := 0xBF
  deriving DecidableEq

def replacementCharacter : Char := Char.ofNat 0xFFFD

def utf8Lead (b : ℕ) : JSString × Utf8State :=
  if b ≤ 0x7F then ([Char.ofNat b], {})
  else if 0xC2 ≤ b ∧ b ≤ 0xDF then ([], ⟨b - 0xC0, 1, 0x80, 0xBF⟩)
  else if 0xE0 ≤ b ∧ b ≤ 0xEF then
    ([], ⟨b - 0xE0, 2, if b = 0xE0 then 0xA0 else 0x80, if b = 0xED then 0x9F else 0xBF⟩)
  else if 0xF0 ≤ b ∧ b ≤ 0xF4 then
    ([], ⟨b - 0xF0, 3, if b = 0xF0 then 0x90 else 0x80, if b = 0xF4 then 0x8F else 0xBF⟩)
  else ([replacementCharacter], {})

def utf8Step (state : Utf8State) (b : ℕ) : JSString × Utf8State :=
  if state.needed = 0 then utf8Lead b
  else if state.lower ≤ b ∧ b ≤ state.upper then
    let codePoint := state.codePoint * 64 + (b - 0x80)
    if state.needed = 1 then ([Char.ofNat codePoint], {})
    else ([], ⟨codePoint, state.needed - 1, 0x80, 0xBF⟩)
  else
    -- the byte that breaks the character off is read again as the first of another
    let lead := utf8Lead b
    (replacementCharacter :: lead.1, lead.2)

def utf8Decode : Utf8State → Bytes → JSString
  | state, [] => if state.needed = 0 then [] else [replacementCharacter]
  | state, b :: s =>
    let step := utf8Step state b.toNat
    step.1 ++ utf8Decode step.2 s

/-- `buffer.toString('utf-8')`. -/
def toUtf8 (s : Bytes) : JSString := utf8Decode {} s

def indexOf (data : Bytes) (byte : UInt8) (start : ℕ) : Option ℕ :=
  ((data.drop start).findIdx? fun b => b = byte).map (start + ·)

def subarray (data : Bytes) (start stop : ℕ) : Bytes := (data.drop start).take (stop - start)

end Buffers

def encode (data : Bytes) : Bytes :=
  bufferFrom (decimal data.length ++ [':']) ++ data ++ bufferFrom [',']

inductive DecodeError where
  | unparsableSize (sizeString : JSString)
  | exceedsLimit (size : ℕ) (limit : ℚ)
  | notTerminated
  deriving DecidableEq

/-- An error of `decode`, and where the netstring it is about starts. -/
structure Fault where
  error : DecodeError
  start : ℕ
  deriving DecidableEq

structure Decoded where
  leftover : Bytes
  payloads : List Bytes
  deriving DecidableEq

/-- The size that a string stands for, unless it is `NaN` or negative. -/
def parseSize (sizeString : JSString) : Option ℕ :=
  match parseInt sizeString with
  | some (Int.ofNat size) => some size
  | _ => none

/-- A limit that is missing or zero is none. -/
def WithinLimit (optMaxChunkSize : Option ℚ) (size : ℕ) : Prop :=
  ∀ limit ∈ optMaxChunkSize, limit = 0 ∨ (size : ℚ) ≤ limit

instance (optMaxChunkSize : Option ℚ) (size : ℕ) : Decidable (WithinLimit optMaxChunkSize size) :=
  inferInstanceAs (Decidable (∀ limit ∈ optMaxChunkSize, _))

def decodeLoop (data : Bytes) (optMaxChunkSize : Option ℚ) :
    ℕ → ℕ → List Bytes → Except Fault Decoded
  | 0, start, payloads => .ok ⟨data.drop start, payloads⟩
  | fuel + 1, start, payloads =>
    match indexOf data COLON start with
    | none => .ok ⟨data.drop start, payloads⟩
    | some colon =>
      let sizeString := toUtf8 (subarray data start colon)
      match parseSize sizeString with
      | none => .error ⟨.unparsableSize sizeString, start⟩
      | some size =>
        if ¬ WithinLimit optMaxChunkSize size then
          .error ⟨.exceedsLimit size (optMaxChunkSize.getD 0), start⟩
        else if data.length < colon + 1 + size + 1 then .ok ⟨data.drop start, payloads⟩
        else if data[colon + 1 + size]? ≠ some COMMA then .error ⟨.notTerminated, start⟩
        else
          decodeLoop data optMaxChunkSize fuel (colon + 1 + size + 1)
            (payloads ++ [subarray data (colon + 1) (colon + 1 + size)])

def decode (data : Bytes) (optMaxChunkSize : Option ℚ) : Except Fault Decoded :=
  decodeLoop data optMaxChunkSize (data.length + 1) 0 []

/-- The decoder stream, with what it has pushed and how many bytes it has let go of. -/
structure DecoderStream where
  buffered : Bytes := []
  pushed : List Bytes := []
  consumed : ℕ := 0
  fault : Option Fault := none
  deriving DecidableEq

/-- An error discards the payloads that were decoded from the same buffer. -/
def transform (optMaxChunkSize : Option ℚ) (stream : DecoderStream) (chunk : Bytes) :
    DecoderStream :=
  let buffered := stream.buffered ++ chunk
  match decode buffered optMaxChunkSize with
  | .ok decoded =>
    { stream with
      buffered := decoded.leftover
      pushed := stream.pushed ++ decoded.payloads
      consumed := stream.consumed + (buffered.length - decoded.leftover.length) }
  | .error fault =>
    { stream with
      buffered
      fault := some { fault with start := stream.consumed + fault.start } }

/-- A stream that has failed is destroyed and transforms no more. -/
def write (optMaxChunkSize : Option ℚ) (stream : DecoderStream) (chunk : Bytes) : DecoderStream :=
  if stream.fault.isSome then stream else transform optMaxChunkSize stream chunk

def netstringDecoderStream (optMaxChunkSize : Option ℚ) (chunks : List Bytes) : DecoderStream :=
  chunks.foldl (write optMaxChunkSize) {}

/-- How far into the bytes the stream has come: to the netstring at fault, if there is one. -/
def DecoderStream.point (stream : DecoderStream) : ℕ :=
  match stream.fault with
  | some fault => fault.start
  | none => stream.consumed

example : netstringDecoderStream none [bufferFrom "3:a".toList, bufferFrom "bc,0:,1".toList] =
    { buffered := bufferFrom "1".toList
      pushed := [bufferFrom "abc".toList, []]
      consumed := 9 } := by
  decide +kernel

end AgoricSdk.Netstring
