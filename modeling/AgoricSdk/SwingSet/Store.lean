import AgoricSdk.Lib.Program
import AgoricSdk.Lib.Table
import AgoricSdk.SwingSet.Slots

/-!
The kernel's database and its in-memory state. The database is one table for
each family of keys (`koNN.owner`, `koNN.refCount`, `kpNN.*`, `vNN.c.*` and so
on) instead of one string map. In-memory state that the source keeps beside the
database (statistics, caches, online workers, flags) is kept beside it here,
because a rollback restores the database and only part of the rest.

A message carries its origin (who sent it, to which slot, its serial number)
and the database a log of sends and outcomes. No definition reads them: they
let statements speak about one message on its way through the queues.
-/

namespace AgoricSdk.SwingSet

/-- What the kernel can read in a serialized body: nothing (unserializing
throws), a bare remotable or promise, or any other value with the slots it
mentions, in the order in which serialization meets them. -/
inductive Body where
  | malformed
  | slot (index : Nat)
  | value (indices : List Nat)
deriving DecidableEq

structure CapData (σ : Type) where
  body : Body
  slots : List σ
deriving DecidableEq

inductive Sender where
  | vat (vatID : VatID)
  | device (deviceID : DeviceID)
  | kernel
deriving DecidableEq

structure Origin where
  sender : Sender
  sentTo : KSlot
  serial : Nat
deriving DecidableEq

structure Message where
  methargs : CapData KSlot
  result : Option KSlot
  origin : Origin
deriving DecidableEq

inductive ResolutionPolicy where
  | ignore
  | logAlways
  | logFailure
  | panic
deriving DecidableEq

inductive PromiseState where
  | unresolved (decider : Option VatID) (policy : ResolutionPolicy) (subscribers : List VatID)
      (queue : List Message)
  | fulfilled (data : CapData KSlot)
  | rejected (data : CapData KSlot)
deriving DecidableEq

structure KernelPromise where
  refCount : Nat
  state : PromiseState
deriving DecidableEq

inductive Source where
  | bundle (bundle : JSString)
  | bundleID (id : JSString)
deriving DecidableEq

/-- One dirt threshold: a count, `never`, or absent. -/
inductive Threshold where
  | absent
  | never
  | atCount (n : Nat)
deriving DecidableEq

structure ReapDirtThreshold where
  deliveries : Threshold
  gcKrefs : Threshold
  computrons : Threshold
  never : Bool
deriving DecidableEq

structure Dirt where
  deliveries : Nat
  gcKrefs : Nat
  computrons : Nat
deriving DecidableEq

structure VatOptions where
  enablePipelining : Bool
  useTranscript : Bool
  critical : Bool
  meterID : Option MeterID
  reapDirtThreshold : ReapDirtThreshold
deriving DecidableEq

/-- `unlimited` is `none`. -/
structure Meter where
  remaining : Option Nat
  threshold : Nat
deriving DecidableEq

/-- Limits of one cleanup call, by phase; `none` is `Infinity`. -/
structure CleanupBudget where
  exports : Option Nat
  imports : Option Nat
  promises : Option Nat
  kv : Option Nat
  snapshots : Option Nat
  transcripts : Option Nat
deriving DecidableEq

inductive GcActionType where
  | dropExport
  | retireExport
  | retireImport
deriving DecidableEq

structure GcAction where
  vatID : VatID
  type : GcActionType
  kref : KSlot
deriving DecidableEq

/-- The options of a `changeVatOptions` event: the kernel's own
`reapInterval`, and whether any option is for the vat. -/
structure ChangedOptions where
  reapInterval : Threshold
  forVat : Bool
deriving DecidableEq

inductive RunQueueEvent where
  | send (target : KSlot) (msg : Message)
  | notify (vatID : VatID) (kpid : KSlot)
  | createVat (vatID : VatID) (source : Source) (vatParameters : CapData KSlot)
      (dynamicOptions : VatOptions)
  | startVat (vatID : VatID) (vatParameters : CapData KSlot)
  | upgradeVat (vatID : VatID) (upgradeID : Nat) (bundleID : JSString)
      (vatParameters : CapData KSlot)
  | changeVatOptions (vatID : VatID) (options : ChangedOptions)
  | cleanupTerminatedVat (vatID : VatID) (budget : CleanupBudget)
  | negatedGcAction
  | bringOutYourDead (vatID : VatID)
  | gc (type : GcActionType) (vatID : VatID) (krefs : List KSlot)
deriving DecidableEq

/-- The gauges among the kernel statistics. -/
inductive Gauge where
  | kernelObjects
  | kernelDevices
  | kernelPromises
  | kpUnresolved
  | kpFulfilled
  | kpRejected
  | runQueueLength
  | acceptanceQueueLength
  | promiseQueuesLength
  | clistEntries
  | vats
deriving DecidableEq

/-- A gauge is a JavaScript number that no code keeps above zero. -/
abbrev Stats := Gauge → Int

/-- How a message ended: delivered to a vat, or rejected by the kernel. -/
inductive Outcome where
  | delivered (vatID : VatID)
  | rejected
deriving DecidableEq

structure KVStore where
  -- objects, promises and device nodes
  owner : Table KSlot VatID
  refCount : Table KSlot (Nat × Nat)
  koNextID : Nat
  promises : Table KSlot KernelPromise
  kpNextID : Nat
  deviceOwner : Table KSlot DeviceID
  kdNextID : Nat
  -- queues
  acceptanceQueue : List RunQueueEvent
  runQueue : List RunQueueEvent
  gcActions : List GcAction
  reapQueue : List VatID
  -- vats
  vatNextID : Nat
  dynamicIDs : List VatID
  vatNames : List (JSString × VatID)
  vatsTerminated : List VatID
  clistK : Table (VatID × KSlot) (Bool × JSString)
  clistV : Table (VatID × JSString) KSlot
  oNextID : Table VatID Nat
  pNextID : Table VatID Nat
  dNextID : Table VatID Nat
  vatOptions : Table VatID VatOptions
  vatSource : Table VatID Source
  reapDirt : Table VatID Dirt
  vatParameters : Table VatID (CapData KSlot)
  vatstore : Table (VatID × JSString) JSString
  /-- The vats whose transcript has a current span. -/
  currentSpans : List VatID
  -- devices
  deviceNextID : Nat
  deviceNames : List (JSString × DeviceID)
  devClistK : Table (DeviceID × KSlot) JSString
  devClistD : Table (DeviceID × JSString) KSlot
  devONextID : Table DeviceID Nat
  devPNextID : Table DeviceID Nat
  devDNextID : Table DeviceID Nat
  -- the rest
  bundles : List JSString
  upgradeNextID : Nat
  meters : Table MeterID Meter
  meterNextID : Nat
  pinnedObjects : List KSlot
  vatAdminRootKref : Option KSlot
  defaultReapDirtThreshold : ReapDirtThreshold
  kernelStats : Stats
  crankNumber : Nat
  -- history, read by no definition
  sendCount : Nat
  outcomes : List (Origin × Outcome)
  externalHolds : List KSlot

/-- Exceptions, named after their messages. -/
inductive Fault where
  | storageLacksRequiredKey
  | refmismatch (kref : KSlot)
  | underflow (kref : KSlot)
  | refCountUnderflow (kref : KSlot)
  | notOfType (kref : KSlot)
  | alreadyResolved (kpid : KSlot)
  | wrongDecider (kpid : KSlot) (decider : Option VatID)
  | notOwnedByOldVat (kref : KSlot)
  | nonStringValue
  | invalidVref (vref : JSString)
  | vrefAlreadyAllocated (vref : JSString)
  | vrefNotInClist (vref : JSString)
  | unknownVatSlot (vref : JSString)
  | deviceNodeExport (vref : JSString)
  | unreachableImport (vref : JSString)
  | krefNotInClist (kref : KSlot)
  | unreachableExport (kref : KSlot)
  | stillReachable (vref : JSString)
  | wasReachable (kref : KSlot)
  | cannotResolveToPromise (vref : JSString)
  | unserializable
  | assertionFailed
  | vatNotInitialized (vatID : VatID)
  | vatNotAlive (vatID : VatID)
  | noCurrentTranscript (vatID : VatID)
  | workerFailed (vatID : VatID)
  | deliverToWrongVat
  | spuriousNotification (kpid : KSlot)
  | unableToSend (target : KSlot)
  | unknownDevice
  | vatIsDead
  | kernelPanic
deriving DecidableEq

/-- What ends a vat: an error of the kernel's own making (no slots), or the
capdata a vat gave to `exit`. -/
abbrev TerminationInfo := CapData KSlot

/-- `makeError`: an error value, which mentions no slots. -/
def makeError : CapData KSlot := ⟨.value [], []⟩

/-- The kernel between two of its actions, beside the database. -/
structure KernelState where
  store : KVStore
  /-- The database as it was at the savepoint 'start'. -/
  savedStart : Option KVStore
  /-- The database as it was at the savepoint 'deliver'. -/
  savedDeliver : Option KVStore
  stats : Stats
  terminatedVats : List VatID
  maybeFreeKrefs : List KSlot
  vatKeepers : List VatID
  /-- `vatWarehouse.ephemeral.vats`: the options each online worker started with. -/
  online : Table VatID VatOptions
  /-- Workers that a pending `stopWorker` will evict. -/
  stopping : List VatID
  kernelPanic : Option Fault
  vatRequestedTermination : Option (Bool × TerminationInfo)
  illegalSyscall : Bool
  /-- Exceptions that syscall handling turned into a dead vat, newest first. -/
  caughtFaults : List Fault

abbrev KM := EStateM Fault KernelState

end AgoricSdk.SwingSet
