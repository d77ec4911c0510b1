import Mathlib.Tactic

/-!
Address hooks in the two languages that read and write them. A hooked address is
a bech32 text whose payload is a magic prefix with a version, a base address,
hook data, and the length of the base address at the end. The bech32 packages of
the two languages are parameters.
-/

namespace AgoricSdk.AddressHooks

abbrev Text := List Char

abbrev Bytes := List UInt8

inductive HookError where
  | bech32 (err : String)
  | unsupportedVersion (version : Nat)
  | hookTooShort (length : Nat)
  | noLengthByte (index : Int) (length : Nat)
  | baseTooLong (b : Nat) (available : Int)
  | baseExceedsMaximum (b maximum : Nat)
  deriving DecidableEq

def liftBech32 {α : Type} : Except String α → Except HookError α
  | .ok a => .ok a
  | .error err => .error (.bech32 err)

def addressHookVersion : UInt8 := 0

def addressHookBytePrefix : Bytes := [0x78, 0xf1, 0x70]

def baseAddressLengthBytes : Nat := 2

namespace Go

/-- The `bech32` package of the chain's SDK. -/
structure Bech32 where
  decodeAndConvert : Text → Except String (Text × Bytes)
  convertAndEncode : Text → Bytes → Except String Text

variable (bech32 : Bech32)

/-- `bytes.TrimPrefix` -/
def trimPrefix (s pre : Bytes) : Bytes := if pre.isPrefixOf s then s.drop pre.length else s

/-- The split of a payload behind the magic prefix, with its version byte. -/
def splitVersioned (hrp : Text) (versionByte : UInt8) (bz : Bytes) :
    Except HookError (Text × Bytes) :=
  let version := versionByte &&& 0x0f
  if version ≠ addressHookVersion then .error (.unsupportedVersion version.toNat)
  else if bz.length < baseAddressLengthBytes then .error (.hookTooShort baseAddressLengthBytes)
  else
    let b := (List.range baseAddressLengthBytes).reverse.foldl
      (fun b i => b <<< 8 ||| (bz.getD (bz.length - 1 - i) 0).toNat) 0
    let payloadEnd := bz.length - baseAddressLengthBytes
    if b > payloadEnd then .error (.baseTooLong b payloadEnd)
    else match liftBech32 (bech32.convertAndEncode hrp (bz.take b)) with
      | .error err => .error err
      | .ok baseAddress => .ok (baseAddress, (bz.take payloadEnd).drop b)

def splitHookedAddress (addr : Text) : Except HookError (Text × Bytes) :=
  match liftBech32 (bech32.decodeAndConvert addr) with
  | .error err => .error err
  | .ok (hrp, payload) =>
    let lastPrefixHighNibble := addressHookBytePrefix.getLastD 0
    match trimPrefix payload addressHookBytePrefix.dropLast with
    | [] => .ok (addr, [])
    | versionByte :: bz =>
      if bz.length + 1 = payload.length ∨ versionByte &&& 0xf0 ≠ lastPrefixHighNibble then
        -- An unhooked address is returned as it is.
        .ok (addr, [])
      else splitVersioned bech32 hrp versionByte bz

/-- The length of the base address, the highest byte first. -/
def lengthBytes (b : Nat) : Bytes := [UInt8.ofNat (b >>> 8), UInt8.ofNat b]

def joinHookedAddress (baseAddr : Text) (hookData : Bytes) : Except HookError Text :=
  match liftBech32 (bech32.decodeAndConvert baseAddr) with
  | .error err => .error err
  | .ok (hrp, bz) =>
    let b := bz.length
    let maxB := 1 <<< (8 * baseAddressLengthBytes - 1) + 1
    if b > maxB then .error (.baseExceedsMaximum b maxB)
    else
      let magic := addressHookBytePrefix.dropLast ++
        [addressHookBytePrefix.getLastD 0 ||| addressHookVersion]
      liftBech32 (bech32.convertAndEncode hrp (magic ++ bz ++ hookData ++ lengthBytes b))

end Go

namespace Js

/-- The `bech32` package from npm. -/
structure Bech32 where
  decode : Text → Nat → Except String (Text × List Nat)
  fromWords : List Nat → Except String Bytes
  toWords : Bytes → List Nat
  encode : Text → List Nat → Nat → Except String Text

/-- `DEFAULT_HOOKED_ADDRESS_CHAR_LIMIT` -/
def defaultHookedAddressCharLimit : Nat := 1024

variable (bech32 : Bech32)

def decodeBech32 (specimen : Text) (charLimit : Nat) : Except HookError (Text × Bytes) :=
  match liftBech32 (bech32.decode specimen charLimit) with
  | .error err => .error err
  | .ok (hrp, words) =>
    match liftBech32 (bech32.fromWords words) with
    | .error err => .error err
    | .ok bytes => .ok (hrp, bytes)

def encodeBech32 (humanReadablePart : Text) (bytes : Bytes) (charLimit : Nat) :
    Except HookError Text :=
  liftBech32 (bech32.encode humanReadablePart (bech32.toWords bytes) charLimit)

def joinHookedAddress (baseAddress : Text) (hookData : Bytes)
    (charLimit : Nat := defaultHookedAddressCharLimit) : Except HookError Text :=
  match decodeBech32 bech32 baseAddress charLimit with
  | .error err => .error err
  | .ok (hrp, bytes) =>
    let b := bytes.length
    let maxBaseAddressLength := 2 ^ (baseAddressLengthBytes * 8)
    if b ≥ maxBaseAddressLength then .error (.baseExceedsMaximum b maxBaseAddressLength)
    else
      let magic := addressHookBytePrefix.dropLast ++
        [addressHookBytePrefix.getLastD 0 ||| addressHookVersion]
      -- The lowest byte of the length is written last in the buffer, and first in time.
      let len := [UInt8.ofNat (b >>> 8 &&& 0xff), UInt8.ofNat (b &&& 0xff)]
      encodeBech32 bech32 hrp (magic ++ bytes ++ hookData ++ len) charLimit

/-- The hook data of a query, as the `query-string` package writes it. -/
def queryHookData {Query : Type} (stringify : Query → String) (query : Query) : Bytes :=
  ("?" ++ stringify query).toUTF8.toList

def encodeAddressHook {Query : Type} (stringify : Query → String) (baseAddress : Text)
    (query : Query) (charLimit : Nat := defaultHookedAddressCharLimit) : Except HookError Text :=
  joinHookedAddress bech32 baseAddress (queryHookData stringify query) charLimit

/-- The version, if the bytes at these indices are magic; a byte that is missing
is no magic byte. -/
def magicVersion (bytes : Bytes) : List Nat → Nat → Option Nat
  | [], version => some version
  | i :: rest, version =>
    let magic := (addressHookBytePrefix.getD i 0).toNat
    if i = addressHookBytePrefix.length - 1 then
      -- The last byte has a low version nibble and a high magic nibble.
      let byte := (bytes.getD i 0).toNat
      if byte &&& 0xf0 ≠ magic then none else magicVersion bytes rest (byte &&& 0x0f)
    else if bytes[i]?.map UInt8.toNat ≠ some magic then none
    else magicVersion bytes rest version

/-- The number in the bytes at these places from the end. -/
def lengthAtEnd (bytes : Bytes) : List Nat → Nat → Except HookError Nat
  | [], len => .ok len
  | i :: rest, len =>
    if i + 1 > bytes.length then .error (.noLengthByte (-i - 1) bytes.length)
    else lengthAtEnd bytes rest (len <<< 8 ||| (bytes.getD (bytes.length - (i + 1)) 0).toNat)

def splitHookedAddress (specimen : Text) (charLimit : Nat := defaultHookedAddressCharLimit) :
    Except HookError (Text × Bytes) :=
  match decodeBech32 bech32 specimen charLimit with
  | .error err => .error err
  | .ok (hrp, bytes) =>
    let prefixLength := addressHookBytePrefix.length
    match magicVersion bytes (List.range prefixLength) 0xff with
    | none => .ok (specimen, [])
    | some version =>
      if version ≠ addressHookVersion.toNat then .error (.unsupportedVersion version)
      else match lengthAtEnd bytes (List.range baseAddressLengthBytes).reverse 0 with
        | .error err => .error err
        | .ok b =>
          let available : Int := bytes.length - baseAddressLengthBytes - prefixLength
          if (b : Int) > available then .error (.baseTooLong b available)
          else
            let baseAddressBuf := (bytes.take (prefixLength + b)).drop prefixLength
            match encodeBech32 bech32 hrp baseAddressBuf charLimit with
            | .error err => .error err
            | .ok baseAddress =>
              .ok (baseAddress,
                (bytes.take (bytes.length - baseAddressLengthBytes)).drop (prefixLength + b))

end Js

end AgoricSdk.AddressHooks
