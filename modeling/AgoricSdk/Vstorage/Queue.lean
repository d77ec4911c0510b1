import AgoricSdk.Vstorage.Tree

/-!
A queue kept in vstorage. The Go side pushes: it writes an item at the index
`tail` and advances the tail. The JavaScript side consumes: an iterator over a
buffer of the same storage deletes the items one by one and settles the indices
when it ends. Either side reads a missing index as zero.

The iterator protocol is that of the language: a loop asks for the next item
until there is none, or closes the iterator with `return` when it is left by a
`break` or an exception of its body; `throw` hands an exception to the iterator.
-/

namespace AgoricSdk.Vstorage

open StateProgram

section Go

/-- The integers of the SDK: parsing undoes printing up to 256 bits. -/
structure SDKInt where
  newIntFromString : Bytes → Option Int
  newIntFromString_decimal : ∀ n : Nat, n < 2 ^ 256 → newIntFromString (decimal n) = some n

/-- 2 ** 256 - 1 -/
def maxSDKInt : Int := 2 ^ 256 - 1

inductive QueueError where
  | couldNotParse (path value : Bytes)
  | overflow (queuePath : Bytes)
  deriving DecidableEq

variable (sdk : SDKInt)

/-- The integer at a path, which is zero when there is none. -/
def getIntValue (path : Bytes) : Keeper (Except QueueError Int) := do
  let indexEntry ← getEntry path
  if !indexEntry.hasValue then return .ok 0
  match sdk.newIntFromString indexEntry.stringValue with
  | none => return .error (.couldNotParse path indexEntry.stringValue)
  | some index => return .ok index

def getQueueLength (queuePath : Bytes) : Keeper (Except QueueError Int) := do
  match ← getIntValue sdk (queuePath ++ ".head".toList) with
  | .error err => return .error err
  | .ok head =>
    match ← getIntValue sdk (queuePath ++ ".tail".toList) with
    | .error err => return .error err
    -- The tail index is exclusive.
    | .ok tail => return .ok (tail - head)

def pushQueueItem (queuePath value : Bytes) : Keeper (Except QueueError Unit) := do
  match ← getIntValue sdk (queuePath ++ ".tail".toList) with
  | .error err => return .error err
  | .ok tail =>
    if tail ≥ maxSDKInt then return .error (.overflow queuePath)
    let nextTail := tail + 1
    setStorage ⟨queuePath ++ pathSeparator :: formatInt tail, some value⟩
    setStorage ⟨queuePath ++ ".tail".toList, some (formatInt nextTail)⟩
    return .ok ()

end Go

/-- The items of a queue as JSON texts, which parsing undoes. -/
structure ItemJSON (V : Type) where
  stringify : V → Bytes
  parse : Bytes → Option V
  parse_stringify : ∀ v, parse (stringify v) = some v

section JavaScript

/-- The value of a digit in the given base. -/
def digitValue (base : Nat) (c : Char) : Option Nat :=
  let d := if c.isDigit then c.toNat - '0'.toNat
    else if 'a' ≤ c ∧ c ≤ 'z' then c.toNat - 'a'.toNat + 10
    else if 'A' ≤ c ∧ c ≤ 'Z' then c.toNat - 'A'.toNat + 10
    else base
  if d < base then some d else none

/-- The number that a numeral stands for in the given base. -/
def ofDigits (base : Nat) (digits : Bytes) : Option Nat :=
  if digits = [] then none
  else digits.foldlM (fun n c => (digitValue base c).map fun d => base * n + d) 0

/-- `BigInt(string)`: a decimal numeral that may be signed, or one in another
base with its mark; the empty string is zero and other texts are errors. -/
def bigInt (text : Bytes) : Option Int :=
  match ((text.dropWhile Char.isWhitespace).reverse.dropWhile Char.isWhitespace).reverse with
  | [] => some 0
  | '0' :: 'x' :: ds | '0' :: 'X' :: ds => (ofDigits 16 ds).map Int.ofNat
  | '0' :: 'o' :: ds | '0' :: 'O' :: ds => (ofDigits 8 ds).map Int.ofNat
  | '0' :: 'b' :: ds | '0' :: 'B' :: ds => (ofDigits 2 ds).map Int.ofNat
  | '+' :: ds => (ofDigits 10 ds).map Int.ofNat
  | '-' :: ds => (ofDigits 10 ds).map fun n => -Int.ofNat n
  | ds => (ofDigits 10 ds).map Int.ofNat

/-- Writes that wait for a commit. No key is both added and deleted. -/
structure Buffer where
  additions : Table Bytes Bytes := ∅
  deletions : List Bytes := []

structure QueueState where
  keeper : KeeperState
  buffer : Buffer := {}
  currentIterator : Option Nat := none
  iterators : Nat := 0

inductive QueueFault (ε : Type) where
  | panic (panic : Panic)
  | invalidIterator
  | syntaxError
  | thrown (err : ε)
  deriving DecidableEq

variable {V ε : Type}

abbrev QueueM (ε : Type) (α : Type) := EStateM (QueueFault ε) QueueState α

/-- A call across the bridge. -/
def bridge {α : Type} (m : Keeper α) : QueueM ε α := fun s =>
  match m s.keeper with
  | .ok a keeper => .ok a { s with keeper }
  | .error err keeper => .error (.panic err) { s with keeper }

/-- The storage of a queue puts its path before every key. -/
def bridgeKey (queuePath key : Bytes) : Bytes := queuePath ++ pathSeparator :: key

def bridgeGet (queuePath key : Bytes) : QueueM ε (Option Bytes) := do
  return (← bridge (getEntry (bridgeKey queuePath key))).value

def bridgeSet (queuePath key value : Bytes) : QueueM ε Unit :=
  bridge (setStorage ⟨bridgeKey queuePath key, some value⟩)

def bridgeDelete (queuePath key : Bytes) : QueueM ε Unit :=
  bridge (setStorage ⟨bridgeKey queuePath key, none⟩)

def bufferGet (queuePath key : Bytes) : QueueM ε (Option Bytes) := do
  let buffer := (← get).buffer
  if buffer.additions.has key then return buffer.additions.lookup key
  if key ∈ buffer.deletions then return none
  bridgeGet queuePath key

def bufferSet (key value : Bytes) : QueueM ε Unit :=
  modify fun s => { s with
    buffer :=
      { additions := s.buffer.additions.insert key value
        deletions := s.buffer.deletions.filter (· ≠ key) } }

def bufferDelete (key : Bytes) : QueueM ε Unit :=
  modify fun s => { s with
    buffer :=
      { additions := s.buffer.additions.erase key
        deletions := if key ∈ s.buffer.deletions then s.buffer.deletions
          else s.buffer.deletions ++ [key] } }

/-- Write the additions in the order of their keys, then delete the deletions. -/
def commit (queuePath : Bytes) : QueueM ε Unit := do
  let buffer := (← get).buffer
  (buffer.additions.keys.insertionSort (· ≤ ·)).forM fun key =>
    bridgeSet queuePath key ((buffer.additions.lookup key).getD [])
  buffer.deletions.forM fun key => bridgeDelete queuePath key
  modify fun s => { s with buffer := {} }

def abort : QueueM ε Unit := modify fun s => { s with buffer := {} }

/-- `BigInt(storage.get(key) || 0)` -/
def getIndex (queuePath key : Bytes) : QueueM ε Int := do
  match ← bufferGet queuePath key with
  | none => return 0
  | some text =>
    if text.isEmpty then return 0
    match bigInt text with
    | some n => return n
    | none => throw .syntaxError

def getHead (queuePath : Bytes) : QueueM ε Int := getIndex queuePath "head".toList

def getTail (queuePath : Bytes) : QueueM ε Int := getIndex queuePath "tail".toList

/-- The variables of one iterator. -/
structure Iterator where
  id : Nat
  head : Int
  tail : Int
  done : Bool
  deriving DecidableEq

def consumeAll (queuePath : Bytes) : QueueM ε Iterator := do
  let head ← getHead queuePath
  let tail ← getTail queuePath
  let id := (← get).iterators
  modify fun s => { s with currentIterator := some id, iterators := id + 1 }
  return { id, head, tail, done := !decide (head < tail) }

/-- `currentIterator === iterator || Fail` -/
def checkCurrent (it : Iterator) : QueueM ε Unit := do
  if (← get).currentIterator ≠ some it.id then throw .invalidIterator

/-- The next item of the queue, or none when the iteration is done. -/
def Iterator.next (json : ItemJSON V) (queuePath : Bytes) (it : Iterator) :
    QueueM ε (Iterator × Option V) := do
  checkCurrent it
  if !it.done then
    if it.head < it.tail then
      -- Still within the queue.
      let headKey := formatInt it.head
      match (← bufferGet queuePath headKey).bind json.parse with
      | none => throw .syntaxError
      | some value =>
        bufferDelete headKey
        return ({ it with head := it.head + 1 }, some value)
    else
      -- Reached the end, so clean up our indices.
      bufferDelete "head".toList
      bufferDelete "tail".toList
      commit queuePath
      return ({ it with done := true }, none)
  else return (it, none)

/-- We're done consuming, so save our state. -/
def Iterator.close (queuePath : Bytes) (it : Iterator) : QueueM ε Iterator := do
  checkCurrent it
  if !it.done then
    bufferSet "head".toList (formatInt it.head)
    commit queuePath
    return { it with done := true }
  else return it

/-- The iterator does not change the storage and throws the error again. -/
def Iterator.raise (it : Iterator) (err : ε) : QueueM ε Iterator := do
  checkCurrent it
  if !it.done then
    abort
    throw (.thrown err)
  else return it

/-- How an iteration is left before its end. -/
inductive Ending (ε : Type) where
  | close
  | raise (err : ε)

/-- Take at most `limit` items; whether the iteration was undone. -/
def consumeLoop (json : ItemJSON V) (queuePath : Bytes) (ending : Ending ε) :
    Nat → Iterator → QueueM ε (List V × Bool)
  | 0, it =>
    match ending with
    | .close => do
      let _ ← it.close queuePath
      return ([], false)
    | .raise err => do
      match ← attempt (it.raise err) with
      | .ok _ => return ([], false)
      | .error _ => return ([], true)
  | limit + 1, it => do
    match ← it.next json queuePath with
    | (_, none) => return ([], false)
    | (it, some value) =>
      let (values, undone) ← consumeLoop json queuePath ending limit it
      return (value :: values, undone)

/-- One iteration of the queue, left after `limit` items if it has so many. -/
def consume (json : ItemJSON V) (queuePath : Bytes) (limit : Nat) (ending : Ending ε) :
    QueueM ε (List V × Bool) := do
  let it ← consumeAll queuePath
  consumeLoop json queuePath ending limit it

end JavaScript

end AgoricSdk.Vstorage
