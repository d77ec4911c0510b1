import AgoricSdk.Lib.Table
import AgoricSdk.Lib.Transition
import Mathlib.Data.Char
import Mathlib.Data.List.Lex
import Mathlib.Data.List.Sort

/-!
The manager of priority senders. For each address it keeps the set of namespaces that asked for
priority, and writes the set to the storage node of the address. The node is made
asynchronously, so that an addition goes on after other calls.
-/

namespace AgoricSdk.PrioritySenders

abbrev Text := List Char

section Namespaces

/-- The characters that `PRIORITY_SENDERS_NAMESPACE_RE` allows. -/
def namespaceChar (c : Char) : Bool := c.isAlphanum || c == '_' || c == '-'

def normalizeSenderNamespace (rawNamespace : Text) : Option Text :=
  let candidate := rawNamespace.map fun c => if c ∈ [' ', ',', '(', ')'] then '_' else c
  if 1 ≤ candidate.length ∧ candidate.length ≤ 50 ∧ candidate.all namespaceChar = true then
    some candidate
  else none

/-- The text that is stored for a set of namespaces. -/
def namespaceList (namespaces : List Text) : Text :=
  [','].intercalate (namespaces.insertionSort (· ≤ ·))

end Namespaces

section Manager

inductive Method where
  | add
  | remove
  deriving DecidableEq

inductive SenderError where
  | alreadyHasAddress (ns address : Text)
  | addressNotRegistered (address : Text)
  | doesNotHaveAddress (ns address : Text)
  deriving DecidableEq

/-- An addition waits for its record: for the node of a new one, or for the turn in which it goes
on with the record it was given. -/
inductive Waiting where
  | node
  | record (r : ℕ)
  deriving DecidableEq

structure Addition where
  ns : Text
  address : Text
  waiting : Waiting
  deriving DecidableEq

/-- A call that took effect, and the error with which it did not. -/
structure Call where
  method : Method
  ns : Text
  address : Text
  error : Option SenderError
  deriving DecidableEq

/-- The records of addresses refer to sets of namespaces, as do the additions that hold them.
Writes that have been sent are applied in this order. -/
structure Manager where
  addressRecords : Table Text ℕ := ∅
  sets : List (List Text) := []
  additions : List Addition := []
  writes : List (Text × Text) := []
  storage : Table Text Text := ∅
  calls : List Call := []

def Manager.namespaces (m : Manager) (r : ℕ) : List Text := (m.sets[r]?).getD []

/-- An empty value deletes the entry. -/
def setValue (storage : Table Text Text) (write : Text × Text) : Table Text Text :=
  if write.2 = [] then storage.erase write.1 else storage.insert write.1 write.2

def Manager.refreshVstorage (m : Manager) (address : Text) (r : ℕ) : Manager :=
  { m with writes := m.writes ++ [(address, namespaceList (m.namespaces r))] }

def Manager.settles (m : Manager) (method : Method) (ns address : Text)
    (error : Option SenderError) : Manager :=
  { m with calls := m.calls ++ [⟨method, ns, address, error⟩] }

/-- A record is at hand, or its node must be made. -/
def Manager.add (m : Manager) (ns address : Text) : Manager :=
  let waiting := match m.addressRecords.lookup address with
    | some r => .record r
    | none => .node
  { m with additions := m.additions ++ [⟨ns, address, waiting⟩] }

/-- The node of an address has been made, and gets a record. -/
def Manager.provideRecord (m : Manager) (i : ℕ) (addition : Addition) : Manager :=
  let r := m.sets.length
  { m with
    addressRecords := m.addressRecords.insert addition.address r
    sets := m.sets ++ [[]]
    additions := m.additions.set i { addition with waiting := .record r } }

/-- An addition goes on with its record. -/
def Manager.addTo (m : Manager) (ns address : Text) (r : ℕ) : Manager :=
  if ns ∈ m.namespaces r then m.settles .add ns address (some (.alreadyHasAddress ns address))
  else
    let m := { m with sets := m.sets.set r (m.namespaces r ++ [ns]) }
    (m.refreshVstorage address r).settles .add ns address none

def Manager.remove (m : Manager) (ns address : Text) : Manager :=
  match m.addressRecords.lookup address with
  | none => m.settles .remove ns address (some (.addressNotRegistered address))
  | some r =>
    if ns ∈ m.namespaces r then
      let m := { m with sets := m.sets.set r ((m.namespaces r).erase ns) }
      let m := if m.namespaces r = [] then
          { m with addressRecords := m.addressRecords.erase address }
        else m
      (m.refreshVstorage address r).settles .remove ns address none
    else m.settles .remove ns address (some (.doesNotHaveAddress ns address))

/-- The chain's priority of an address. -/
def Manager.isHighPriorityAddress (m : Manager) (address : Text) : Bool :=
  m.storage.has address

end Manager

section Steps

/-- Calls come in any order, and the additions go on in any order. A call with an invalid
namespace throws before it does anything. An addition whose node cannot be made rejects. -/
inductive SenderEvent where
  | add (rawNamespace address : Text)
  | remove (rawNamespace address : Text)
  | nodeMade (i : ℕ)
  | nodeFails (i : ℕ)
  | goesOn (i : ℕ)
  | writeApplied

def senderStep (m : Manager) : SenderEvent → Option Manager
  | .add rawNamespace address =>
    match normalizeSenderNamespace rawNamespace with
    | some ns => some (m.add ns address)
    | none => some m
  | .remove rawNamespace address =>
    match normalizeSenderNamespace rawNamespace with
    | some ns => some (m.remove ns address)
    | none => some m
  | .nodeMade i =>
    match m.additions[i]? with
    | some addition =>
      match addition.waiting with
      | .node => some (m.provideRecord i addition)
      | .record _ => none
    | none => none
  | .nodeFails i =>
    match m.additions[i]? with
    | some addition =>
      match addition.waiting with
      | .node => some { m with additions := m.additions.eraseIdx i }
      | .record _ => none
    | none => none
  | .goesOn i =>
    match m.additions[i]? with
    | some addition =>
      match addition.waiting with
      | .node => none
      | .record r => some <|
        { m with additions := m.additions.eraseIdx i }.addTo addition.ns addition.address r
    | none => none
  | .writeApplied =>
    match m.writes with
    | [] => none
    | write :: writes => some { m with storage := setValue m.storage write, writes }

def prioritySenders : TransitionSystem Manager SenderEvent where
  init m := m = {}
  step := senderStep

end Steps

end AgoricSdk.PrioritySenders
