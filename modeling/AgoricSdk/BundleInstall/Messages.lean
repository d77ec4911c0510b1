import Mathlib.Tactic

/-!
The messages that install bundles on the chain, and their validation. A bundle
may be sent whole, compressed, or in chunks; a chunked bundle is announced by an
install message that lists the hash and the size of every chunk, and its chunks
follow in messages of their own.
-/

namespace AgoricSdk.BundleInstall

abbrev Bytes := List UInt8

inductive ChunkState where
  | unspecified
  | inFlight
  | received
  | processed
  | unrecognized (value : Int)
  deriving DecidableEq

structure ChunkInfo where
  sha512 : String
  sizeBytes : Nat
  state : ChunkState
  deriving DecidableEq

structure ChunkedArtifact where
  sha512 : String
  sizeBytes : Nat
  chunks : List ChunkInfo
  deriving DecidableEq

structure MsgInstallBundle where
  bundle : Bytes := []
  submitter : Bytes := []
  compressedBundle : Bytes := []
  uncompressedSize : Int := 0
  chunkedArtifact : Option ChunkedArtifact := none
  deriving DecidableEq

structure MsgSendChunk where
  chunkedArtifactId : Nat
  submitter : Bytes
  chunkIndex : Nat
  chunkData : Bytes
  deriving DecidableEq

structure Params where
  installationDeadlineBlocks : Int
  installationDeadlineSeconds : Int
  bundleUncompressedSizeLimitBytes : Int
  chunkSizeLimitBytes : Int
  deriving DecidableEq

/-- The errors of the messages, with the data that their texts mention, and the
panic of a missing artifact. -/
inductive BundleError where
  | submitterEmpty
  | moreThanOneForm
  | bundleEmpty
  | uncompressedSizeNegative
  | uncompressedSizeMissing
  | uncompressedSizeWithBundle
  | chunksEmpty
  | bundleHashLength
  | bundleHashNotHex
  | sizeOverflow (chunk : Nat)
  | chunkHashLength (chunk : Nat)
  | chunkHashNotHex (chunk : Nat)
  | chunkStateUnrecognized (chunk : Nat) (value : Int)
  | bundleSizeMismatch (size total : Nat)
  | uncompressedSizeOutOfRange
  | bundleSizeOutOfRange
  | tooManyChunks (limit : Int)
  | chunkSizeOutOfRange (chunk : Nat)
  | chunkStateNotUnspecified (chunk : Nat)
  | artifactIdZero
  | chunkDataEmpty
  | chunkTooLarge (limit : Int)
  | chunkIndexTooLarge (limit : Int)
  | noUpload (id : Nat)
  | chunkIndexOutOfRange (index id : Nat)
  | chunkNotInFlight (index id : Nat)
  | chunkSizeMismatch (index id : Nat)
  | cannotDecodeChunkHash (index : Nat) (hash : String)
  | chunkHashLengthMismatch (index expected actual : Nat)
  | chunkHashMismatch (index : Nat) (expected actual : Bytes)
  | cannotDecodeHash (hash : String)
  | bundleHashMismatch (expected actual : Bytes)
  | uncompress (err : String)
  | uncompressedSizeWrong
  | pushAction (err : String)
  | inconsistentList (last : Nat)
  | missingLast
  | missingNode (id : Nat) (op : String)
  | nilArtifact
  | endless
  deriving DecidableEq

/-- `sha512.Size` -/
def sha512Size : Nat := 64

/-- The conversion of a `uint64` to an `int64`. -/
def int64 (n : Nat) : Int := if n < 2 ^ 63 then n else (n : Int) - 2 ^ 64

/-- `math.MaxUint64` -/
def maxUint64 : Nat := 2 ^ 64 - 1

def hexDigit (c : Char) : Option Nat :=
  if c.isDigit then some (c.toNat - '0'.toNat)
  else if 'a' ≤ c ∧ c ≤ 'f' then some (c.toNat - 'a'.toNat + 10)
  else if 'A' ≤ c ∧ c ≤ 'F' then some (c.toNat - 'A'.toNat + 10)
  else none

def decodePairs : List Char → Option Bytes
  | [] => some []
  | [_] => none
  | c :: d :: rest => do
    let hi ← hexDigit c
    let lo ← hexDigit d
    let bytes ← decodePairs rest
    return UInt8.ofNat (16 * hi + lo) :: bytes

/-- `hex.DecodeString` -/
def decodeHex (s : String) : Option Bytes := decodePairs s.toList

/-- A nonempty sequence of pairs of hexadecimal digits. -/
def isHexBytes (s : String) : Bool := !s.toList.isEmpty && (decodeHex s).isSome

/-- The checks of one chunk after another, with the sum of their sizes. -/
def validateChunks : List ChunkInfo → Nat → Nat → Except BundleError Nat
  | [], _, totalSize => .ok totalSize
  | chunk :: chunks, i, totalSize =>
    if totalSize > maxUint64 - chunk.sizeBytes then .error (.sizeOverflow i)
    else if chunk.sha512.length ≠ sha512Size * 2 then .error (.chunkHashLength i)
    else if !isHexBytes chunk.sha512 then .error (.chunkHashNotHex i)
    else match chunk.state with
      | .unrecognized value => .error (.chunkStateUnrecognized i value)
      | _ => validateChunks chunks (i + 1) (totalSize + chunk.sizeBytes)

def ChunkedArtifact.validateBasic (bc : ChunkedArtifact) : Except BundleError Unit :=
  if bc.chunks.isEmpty then .error .chunksEmpty
  else if bc.sha512.length ≠ sha512Size * 2 then .error .bundleHashLength
  else if !isHexBytes bc.sha512 then .error .bundleHashNotHex
  else match validateChunks bc.chunks 0 0 with
    | .error err => .error err
    | .ok totalSize =>
      if bc.sizeBytes ≠ totalSize then .error (.bundleSizeMismatch bc.sizeBytes totalSize)
      else .ok ()

def MsgInstallBundle.validateBasic (msg : MsgInstallBundle) : Except BundleError Unit :=
  let hasBundle := !msg.bundle.isEmpty
  let hasCompressed := !msg.compressedBundle.isEmpty
  let hasChunks := msg.chunkedArtifact.isSome
  if msg.submitter.isEmpty then .error .submitterEmpty
  else if hasBundle && hasCompressed || hasBundle && hasChunks || hasCompressed && hasChunks then
    .error .moreThanOneForm
  else if !hasBundle && !hasCompressed && !hasChunks then .error .bundleEmpty
  else if msg.uncompressedSize < 0 then .error .uncompressedSizeNegative
  else if msg.uncompressedSize = 0 ∧ hasCompressed then .error .uncompressedSizeMissing
  else if msg.uncompressedSize ≠ 0 ∧ hasBundle then .error .uncompressedSizeWithBundle
  else match msg.chunkedArtifact with
    | none => .ok ()
    | some ca => ca.validateBasic

def MsgSendChunk.validateBasic (msg : MsgSendChunk) : Except BundleError Unit :=
  if msg.chunkedArtifactId = 0 then .error .artifactIdZero
  else if msg.submitter.isEmpty then .error .submitterEmpty
  else if msg.chunkData.isEmpty then .error .chunkDataEmpty
  else .ok ()

/-- The most chunks that a bundle may have. -/
def maxArtifactChunksCount (bundleUncompressedSizeLimitBytes chunkSizeLimitBytes : Int) : Int :=
  if chunkSizeLimitBytes ≤ 0 then 0
  else (bundleUncompressedSizeLimitBytes + chunkSizeLimitBytes - 1).tdiv chunkSizeLimitBytes

/-- The index of the first chunk whose size is out of range. -/
def chunkOutOfRange (limit : Int) : List ChunkInfo → Nat → Option Nat
  | [], _ => none
  | chunk :: chunks, i =>
    if chunk.sizeBytes = 0 ∨ int64 chunk.sizeBytes > limit then some i
    else chunkOutOfRange limit chunks (i + 1)

def validateChunkedArtifact (params : Params) : Option ChunkedArtifact → Except BundleError Unit
  | none => .ok ()
  | some ca =>
    match ca.validateBasic with
    | .error err => .error err
    | .ok () =>
      let chunkIndexLimit := maxArtifactChunksCount params.bundleUncompressedSizeLimitBytes
        params.chunkSizeLimitBytes
      if ca.sizeBytes = 0 ∨ int64 ca.sizeBytes ≥ params.bundleUncompressedSizeLimitBytes then
        .error .bundleSizeOutOfRange
      else if (ca.chunks.length : Int) > chunkIndexLimit then
        .error (.tooManyChunks chunkIndexLimit)
      else match chunkOutOfRange params.chunkSizeLimitBytes ca.chunks 0 with
        | some i => .error (.chunkSizeOutOfRange i)
        | none => .ok ()

def validateMsgInstallBundle (params : Params) (msg : MsgInstallBundle) :
    Except BundleError Unit :=
  match msg.validateBasic with
  | .error err => .error err
  | .ok () =>
    if msg.uncompressedSize ≥ params.bundleUncompressedSizeLimitBytes then
      .error .uncompressedSizeOutOfRange
    else validateChunkedArtifact params msg.chunkedArtifact

def validateMsgSendChunk (params : Params) (msg : MsgSendChunk) : Except BundleError Unit :=
  match msg.validateBasic with
  | .error err => .error err
  | .ok () =>
    let chunkIndexLimit := maxArtifactChunksCount params.bundleUncompressedSizeLimitBytes
      params.chunkSizeLimitBytes
    if (msg.chunkData.length : Int) > params.chunkSizeLimitBytes then
      .error (.chunkTooLarge params.chunkSizeLimitBytes)
    else if int64 msg.chunkIndex ≥ chunkIndexLimit then
      .error (.chunkIndexTooLarge chunkIndexLimit)
    else .ok ()

end AgoricSdk.BundleInstall
