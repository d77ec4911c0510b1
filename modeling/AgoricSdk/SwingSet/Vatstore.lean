import AgoricSdk.Lib.OrderedMap
import AgoricSdk.Lib.Transition
import AgoricSdk.SwingSet.Refcounts
import Mathlib.Data.Char
import Mathlib.Data.List.Lex

/-!
The vatstores in the key space that they share with the rest of the kernel: the syscalls of the
vats as the kernel carries them out on one flat store and as the transcripts record them, between
other writes of the kernel, the slow deletion of terminated vats, and cranks that are rolled back.
-/

namespace AgoricSdk.Vatstore

open SwingSet (JSString VatID VatKey vatIDKey)

abbrev KVStore := Table JSString JSString

/-- `s || null` -/
def orNull (s : Option JSString) : Option JSString := s.filter fun value => value ≠ []

/-- `kvStore.getNextKey` -/
def getNextKey (kvStore : KVStore) (priorKey : JSString) : Option JSString :=
  OrderedMap.next kvStore.keys.toFinset priorKey

section Syscalls

def vatstorePrefix (vatID : VatID) : JSString := vatIDKey vatID ++ ['.', 'v', 's', '.']

def vatstoreKeyKey (vatID : VatID) (key : JSString) : JSString := vatstorePrefix vatID ++ key

def vatstoreKeyInRange (vatID : VatID) (key : JSString) : Bool :=
  (vatstorePrefix vatID).isPrefixOf key

def descopeVatstoreKey (vatID : VatID) (dbKey : JSString) : JSString :=
  dbKey.drop (vatstorePrefix vatID).length

inductive VatstoreSyscall where
  | vatstoreGet (key : JSString)
  | vatstoreSet (key value : JSString)
  | vatstoreGetNextKey (priorKey : JSString)
  | vatstoreDelete (key : JSString)
  deriving DecidableEq

def vatstoreGet (kvStore : KVStore) (vatID : VatID) (key : JSString) : Option JSString :=
  orNull (kvStore.lookup (vatstoreKeyKey vatID key))

def vatstoreGetNextKey (kvStore : KVStore) (vatID : VatID) (priorKey : JSString) :
    Option JSString :=
  match orNull (getNextKey kvStore (vatstoreKeyKey vatID priorKey)) with
  | none => none
  | some nextDbKey =>
    if vatstoreKeyInRange vatID nextDbKey then some (descopeVatstoreKey vatID nextDbKey) else none

/-- The data of the result, which is always `ok`, and the store. -/
def kernelSyscallHandler (kvStore : KVStore) (vatID : VatID) :
    VatstoreSyscall → Option JSString × KVStore
  | .vatstoreGet key => (vatstoreGet kvStore vatID key, kvStore)
  | .vatstoreSet key value => (none, kvStore.insert (vatstoreKeyKey vatID key) value)
  | .vatstoreGetNextKey priorKey => (vatstoreGetNextKey kvStore vatID priorKey, kvStore)
  | .vatstoreDelete key => (none, kvStore.erase (vatstoreKeyKey vatID key))

def kernelSyscallResultToVatSyscallResult : VatstoreSyscall → Option JSString → Option JSString
  | .vatstoreGet _, resultData | .vatstoreGetNextKey _, resultData => orNull resultData
  | .vatstoreSet .., _ | .vatstoreDelete _, _ => none

def vatSyscallHandler (kvStore : KVStore) (vatID : VatID) (vso : VatstoreSyscall) :
    Option JSString × KVStore :=
  let kres := kernelSyscallHandler kvStore vatID vso
  (kernelSyscallResultToVatSyscallResult vso kres.1, kres.2)

end Syscalls

section Transcripts

/-- A syscall as the transcript of the vat has it, with its result. -/
structure TranscriptSyscall where
  s : VatstoreSyscall
  r : Option JSString
  deriving DecidableEq

/-- The results that a replay of the syscalls is given; `none` where it differs from what is
expected, makes an extra syscall or misses one. -/
def replay : List TranscriptSyscall → List VatstoreSyscall → Option (List (Option JSString))
  | [], [] => some []
  | expected :: syscallsExpected, vso :: syscallsMade =>
    if expected.s = vso then (replay syscallsExpected syscallsMade).map (expected.r :: ·) else none
  | _, _ => none

end Transcripts

section KernelKeys

/-- The families of kernel keys that are not of one vat, by how their keys start. -/
inductive KeyFamily where
  | version
  | vat
  | vats
  | device
  | meter
  | namedBundleID
  | bundle
  | kernel
  | exclude
  | ofMeter
  | ofDevice
  | crankNumber
  | runQueue
  | acceptanceQueue
  | gcActions
  | reapQueue
  | pinnedObjects
  | upgradeEvents
  | object
  | deviceNode
  | promise
  | host
  deriving DecidableEq

def KeyFamily.start : KeyFamily → JSString
  | .version => ['v', 'e', 'r', 's', 'i', 'o', 'n']
  | .vat => ['v', 'a', 't', '.']
  | .vats => ['v', 'a', 't', 's', '.']
  | .device => ['d', 'e', 'v', 'i', 'c', 'e', '.']
  | .meter => ['m', 'e', 't', 'e', 'r', '.']
  | .namedBundleID => ['n', 'a', 'm', 'e', 'd', 'B', 'u', 'n', 'd', 'l', 'e', 'I', 'D', '.']
  | .bundle => ['b', 'u', 'n', 'd', 'l', 'e', '.']
  | .kernel => ['k', 'e', 'r', 'n', 'e', 'l']
  | .exclude => ['l', 'o', 'c', 'a', 'l', '.']
  | .ofMeter => ['m']
  | .ofDevice => ['d']
  | .crankNumber => ['c', 'r', 'a', 'n', 'k', 'N', 'u', 'm', 'b', 'e', 'r']
  | .runQueue => ['r', 'u', 'n', 'Q', 'u', 'e', 'u', 'e']
  | .acceptanceQueue => ['a', 'c', 'c', 'e', 'p', 't', 'a', 'n', 'c', 'e', 'Q', 'u', 'e', 'u', 'e']
  | .gcActions => ['g', 'c', 'A', 'c', 't', 'i', 'o', 'n', 's']
  | .reapQueue => ['r', 'e', 'a', 'p', 'Q', 'u', 'e', 'u', 'e']
  | .pinnedObjects => ['p', 'i', 'n', 'n', 'e', 'd', 'O', 'b', 'j', 'e', 'c', 't', 's']
  | .upgradeEvents => ['u', 'p', 'g', 'r', 'a', 'd', 'e', 'E', 'v', 'e', 'n', 't', 's']
  | .object => ['k', 'o']
  | .deviceNode => ['k', 'd']
  | .promise => ['k', 'p']
  | .host => ['h', 'o', 's', 't', '.']

/-- A key that the kernel keeps something under that is not in a vatstore. -/
inductive KernelKey where
  | ofVat (vatID : VatID) (key : { key : VatKey // ∀ k, key ≠ .vatstore k })
  | other (family : KeyFamily) (rest : JSString)

def KernelKey.text : KernelKey → JSString
  | .ofVat vatID key => vatIDKey vatID ++ '.' :: key.val.suffix
  | .other family rest => family.start ++ rest

end KernelKeys

section Cleanup

/-- Delete the keys that start with the prefix, the given number of them at most, going on from
`key`. -/
def deletePrefixed (start : JSString) : ℕ → JSString → KVStore → KVStore
  | 0, _, kvStore => kvStore
  | n + 1, key, kvStore =>
    match orNull (getNextKey kvStore key) with
    | none => kvStore
    | some next =>
      if start.isPrefixOf next then deletePrefixed start n next (kvStore.erase next) else kvStore

/-- The last phase of the cleanup, in which the vatstore goes. No budget is `none`, and one key
is deleted in any case. -/
def cleanupAfterTerminatedVat (kvStore : KVStore) (vatID : VatID) (budget : Option ℕ) : KVStore :=
  let start := vatIDKey vatID ++ ['.']
  deletePrefixed start (max 1 (budget.getD kvStore.size)) start kvStore

end Cleanup

/-- What a crank may be rolled back to. -/
structure Database where
  kvStore : KVStore := ∅
  terminated : List VatID := []
  /-- What was recorded in the transcripts, with the vats. -/
  recorded : List (VatID × TranscriptSyscall) := []

def Database.transcript (db : Database) (vatID : VatID) : List TranscriptSyscall :=
  (db.recorded.filter fun entry => entry.1 = vatID).map (·.2)

structure Kernel where
  database : Database := {}
  savepoint : Database := {}

inductive Activity where
  | syscall (vatID : VatID) (vso : VatstoreSyscall)
  | set (key : KernelKey) (value : JSString)
  | delete (key : KernelKey)
  | terminateVat (vatID : VatID)
  | cleanup (vatID : VatID) (budget : Option ℕ)
  | establishCrankSavepoint
  | rollbackCrank

def Kernel.step (kernel : Kernel) : Activity → Option Kernel
  | .syscall vatID vso =>
    if vatID ∈ kernel.database.terminated then none
    else
      let result := vatSyscallHandler kernel.database.kvStore vatID vso
      some { kernel with database := { kernel.database with
        kvStore := result.2
        recorded := kernel.database.recorded ++ [(vatID, ⟨vso, result.1⟩)] } }
  | .set key value => some { kernel with database := { kernel.database with
      kvStore := kernel.database.kvStore.insert key.text value } }
  | .delete key => some { kernel with database := { kernel.database with
      kvStore := kernel.database.kvStore.erase key.text } }
  | .terminateVat vatID => some { kernel with database := { kernel.database with
      terminated := vatID :: kernel.database.terminated } }
  | .cleanup vatID budget =>
    if vatID ∈ kernel.database.terminated then
      some { kernel with database := { kernel.database with
        kvStore := cleanupAfterTerminatedVat kernel.database.kvStore vatID budget } }
    else none
  | .establishCrankSavepoint => some { kernel with savepoint := kernel.database }
  | .rollbackCrank => some { kernel with database := kernel.savepoint }

def kernel : TransitionSystem Kernel Activity where
  init s := s = {}
  step := Kernel.step

end AgoricSdk.Vatstore
