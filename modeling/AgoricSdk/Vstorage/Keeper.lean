import AgoricSdk.Lib.Program
import AgoricSdk.Lib.Table
import AgoricSdk.Vstorage.PathKeys

/-!
The vstorage keeper. Its state is the key-value store of the module and the
changes that the change manager has batched since the last flush. A panic stops
a call where it stands. The store's iterator visits the keys in ascending order.
-/

namespace AgoricSdk.Vstorage

open StateProgram

/-- A key with a value that may be missing, which differs from an empty one. -/
structure KVEntry where
  key : Bytes
  value : Option Bytes
  deriving DecidableEq

namespace KVEntry

def hasValue (entry : KVEntry) : Bool := entry.value.isSome

/-- The value, or the empty string when there is none. -/
def stringValue (entry : KVEntry) : Bytes := entry.value.getD []

end KVEntry

def encodedDataPrefix : Bytes := [Char.ofNat 0]

def encodedNoDataValue : Bytes := [Char.ofNat 255]

structure ProposedChange where
  path : Bytes
  valueFromLastBlock : Bytes
  newValue : Bytes
  legacyEvents : Bool
  deriving DecidableEq

structure StreamCell where
  blockHeight : Bytes
  values : List Bytes
  deriving DecidableEq

structure KeeperState where
  store : Table Bytes Bytes := ∅
  changes : Table Bytes ProposedChange := ∅

abbrev Keeper (α : Type) := EStateM Panic KeeperState α

section Store

/-- `store.Get`, which has nothing to say of a missing key but an empty value. -/
def storeGet (key : Bytes) : Keeper Bytes := do
  return ((← get).store.lookup key).getD []

def storeHas (key : Bytes) : Keeper Bool := do
  return (← get).store.has key

def storeSet (key value : Bytes) : Keeper Unit :=
  modify fun s => { s with store := s.store.insert key value }

def storeDelete (key : Bytes) : Keeper Unit :=
  modify fun s => { s with store := s.store.erase key }

/-- The keys with a prefix, in ascending order. -/
def iteratorKeys (store : Table Bytes Bytes) (keyPrefix : Bytes) : List Bytes :=
  (store.keys.filter fun key => keyPrefix.isPrefixOf key).insertionSort (· ≤ ·)

def kvStorePrefixIterator (keyPrefix : Bytes) : Keeper (List Bytes) := do
  return iteratorKeys (← get).store keyPrefix

end Store

/-- `strings.Split` by the path separator. -/
def splitPath (path : Bytes) : List Bytes := path.splitOn pathSeparator

def componentsToPath (components : List Bytes) : Bytes := [pathSeparator].intercalate components

/-- Gets generic storage; the default is an entry without a value. -/
def getEntry (path : Bytes) : Keeper KVEntry := do
  let encodedKey ← MonadExcept.ofExcept (pathToEncodedKey path)
  let rawValue ← storeGet encodedKey
  if rawValue = [] then return ⟨path, none⟩
  if rawValue = encodedNoDataValue then return ⟨path, none⟩
  match rawValue.dropPrefix? encodedDataPrefix with
  | some value => return ⟨path, some value⟩
  | none => throw (.unexpectedPrefix path)

def getKeyIterator (path : Bytes) : Keeper (List Bytes) := do
  let keyPrefix ← MonadExcept.ofExcept (pathToChildrenPrefix path)
  kvStorePrefixIterator keyPrefix

/-- The last part of the path of a key. -/
def childName (key : Bytes) : Keeper Bytes := do
  let path ← MonadExcept.ofExcept (encodedKeyToPath key)
  return (splitPath path).getLastD []

def getChildren (path : Bytes) : Keeper (List Bytes) := do
  (← getKeyIterator path).mapM childName

/-- Whether a path has data. -/
def hasStorage (path : Bytes) : Keeper Bool := do
  return (← getEntry path).hasValue

/-- Whether a path has either subnodes or data. -/
def hasEntry (path : Bytes) : Keeper Bool := do
  let encodedKey ← MonadExcept.ofExcept (pathToEncodedKey path)
  storeHas encodedKey

def hasChildren (path : Bytes) : Keeper Bool := do
  return !(← getKeyIterator path).isEmpty

/-- Delete the placeholder ancestors that are no longer needed; the loop index
of the source is one less than the argument. -/
def deletePlaceholders (pathComponents : List Bytes) : Nat → Keeper Unit
  | 0 => return
  | i + 1 => do
    let ancestor := componentsToPath (pathComponents.take i)
    if (← hasStorage ancestor) then return
    if (← hasChildren ancestor) then return
    let encodedAncestor ← MonadExcept.ofExcept (pathToEncodedKey ancestor)
    storeDelete encodedAncestor
    deletePlaceholders pathComponents i

/-- Add the placeholder ancestors that are missing. -/
def addPlaceholders (pathComponents : List Bytes) : Nat → Keeper Unit
  | 0 => return
  | i + 1 => do
    let ancestor := componentsToPath (pathComponents.take i)
    if (← hasEntry ancestor) then return
    let encodedAncestor ← MonadExcept.ofExcept (pathToEncodedKey ancestor)
    storeSet encodedAncestor encodedNoDataValue
    addPlaceholders pathComponents i

/-- Sets the data of a path, or removes it when the entry has no value. -/
def setStorage (entry : KVEntry) : Keeper Unit := do
  let path := entry.key
  let encodedKey ← MonadExcept.ofExcept (pathToEncodedKey path)
  let pathComponents := splitPath path
  match entry.value with
  | none =>
    if !(← hasChildren path) then storeDelete encodedKey
    else storeSet encodedKey encodedNoDataValue
    deletePlaceholders pathComponents pathComponents.length
  | some value =>
    storeSet encodedKey (encodedDataPrefix ++ value)
    addPlaceholders pathComponents pathComponents.length

/-- Batch a change; the first one for a path records the value it found. -/
def track (entry : KVEntry) (isLegacy : Bool) : Keeper Unit := do
  let path := entry.key
  let value := entry.stringValue
  match (← get).changes.lookup path with
  | some change =>
    let change := { change with
      newValue := value
      legacyEvents := isLegacy || change.legacyEvents }
    modify fun s => { s with changes := s.changes.insert path change }
  | none =>
    let valueFromLastBlock := (← getEntry path).stringValue
    modify fun s => { s with
      changes := s.changes.insert path
        { path, valueFromLastBlock, newValue := value, legacyEvents := isLegacy } }

def setStorageAndNotify (entry : KVEntry) : Keeper Unit := do
  track entry false
  setStorage entry

def legacySetStorageAndNotify (entry : KVEntry) : Keeper Unit := do
  track entry true
  setStorage entry

/-- `strconv.FormatInt(height, 10)`. -/
def formatInt (height : Int) : Bytes :=
  match height with
  | .ofNat n => decimal n
  | .negSucc n => '-' :: decimal (n + 1)

/-- The JSON text of stream cells: what `json.Marshal` gives, if it succeeds, and
what `json.Unmarshal` leaves in a cell. -/
structure CellJSON where
  marshal : StreamCell → Except Bytes Bytes
  unmarshal : Bytes → StreamCell

/-- The cell of the current block with the value added. -/
def CellJSON.append (json : CellJSON) (height : Int) (currentData value : Bytes) : StreamCell :=
  let cell := json.unmarshal currentData
  let blockHeight := formatInt height
  let cell := if cell.blockHeight ≠ blockHeight then { blockHeight, values := [] } else cell
  { cell with values := cell.values ++ [value] }

/-- The error of `json.Marshal`, if any, is returned and nothing is written. -/
def appendStorageValueAndNotify (json : CellJSON) (height : Int) (path value : Bytes) :
    Keeper (Except Bytes Unit) := do
  let currentData := (← getEntry path).stringValue
  match json.marshal (json.append height currentData value) with
  | .error err => return .error err
  | .ok bz =>
    setStorageAndNotify ⟨path, some bz⟩
    return .ok ()

/-- The keys of the iterator whose path has the prefix. -/
def getEncodedKeysWithPrefixFromIterator (pathPrefix : Bytes) (keys : List Bytes) :
    Keeper (List Bytes) :=
  keys.filterM fun key => do
    let path ← MonadExcept.ofExcept (encodedKeyToPath key)
    return pathPrefix.isPrefixOf path

/-- Removes the data of a path and of all its descendants. -/
def removeEntriesWithPrefix (pathPrefix : Bytes) : Keeper Unit := do
  if pathPrefix.length = 0 then throw .cannotRemoveAllContent
  match validatePath pathPrefix with
  | .error err => throw (.invalidPath err)
  | .ok () =>
    let descendantPrefix := pathPrefix ++ [pathSeparator]
    let keys ← getEncodedKeysWithPrefixFromIterator descendantPrefix (← kvStorePrefixIterator [])
    keys.forM storeDelete
    setStorage ⟨pathPrefix, none⟩

structure DataEntry where
  path : Bytes
  value : Bytes
  deriving DecidableEq

def importStorage (entries : List DataEntry) : Keeper Unit :=
  entries.forM fun entry => setStorage ⟨entry.path, some entry.value⟩

/-- The errors that an export returns. -/
inductive ExportError where
  | invalidPath (err : PathError)
  | unexpectedPrefix (path : Bytes)
  deriving DecidableEq

/-- The export's loop over the keys that the iterator still has to visit. -/
def exportEntries (pathPrefix : Bytes) :
    List Bytes → List DataEntry → Keeper (Except ExportError (List DataEntry))
  | [], exported => return .ok exported
  | key :: keys, exported => do
    let rawValue ← storeGet key
    if rawValue = [] then exportEntries pathPrefix keys exported
    else if rawValue = encodedNoDataValue then exportEntries pathPrefix keys exported
    else
      let path ← MonadExcept.ofExcept (encodedKeyToPath key)
      if ¬ pathPrefix.isPrefixOf path then exportEntries pathPrefix keys exported
      else
        match rawValue.dropPrefix? encodedDataPrefix with
        | none => return .error (.unexpectedPrefix path)
        | some value =>
          let entry : DataEntry := ⟨path.drop pathPrefix.length, value⟩
          exportEntries pathPrefix keys (exported ++ [entry])

/-- Fetches the storage under the path; an empty one stands for everything. -/
def exportStorageFromPrefix (pathPrefix : Bytes) :
    Keeper (Except ExportError (List DataEntry)) := do
  match (if 0 < pathPrefix.length then validatePath pathPrefix else .ok ()) with
  | .error err => return .error (.invalidPath err)
  | .ok () =>
    let pathPrefix :=
      if 0 < pathPrefix.length then pathPrefix ++ [pathSeparator] else pathPrefix
    exportEntries pathPrefix (← kvStorePrefixIterator []) []

def exportStorage : Keeper (Except ExportError (List DataEntry)) := exportStorageFromPrefix []

end AgoricSdk.Vstorage
