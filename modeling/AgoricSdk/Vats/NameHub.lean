import AgoricSdk.Lib.Table
import AgoricSdk.Lib.Transition
import Mathlib.Logic.Function.Basic

/-!
A name hub: a map from keys to values and to the admins of the values, with placeholders for the
keys that are reserved. A placeholder is a promise kit, which a later turn than the one that
resolves it moves to the map.
-/

namespace AgoricSdk.NameHub

/-- What a hub holds: a value from outside, or a facet of a child that the hub has made. -/
inductive NameValue (ν : Type) where
  | plain (value : ν)
  | childHub (child : ℕ)
  | childAdmin (child : ℕ)
  deriving DecidableEq

/-- What a key stands for: its value, and the admin of the value. -/
inductive Facet where
  | admin
  | value
  deriving DecidableEq

inductive PromiseState (ν : Type) where
  | pending
  | fulfilled (value : NameValue ν)
  | rejected
  deriving DecidableEq

/-- The kit of a placeholder. `reserve` has attached the reaction that moves what it is given. -/
structure PromiseKit (κ ν : Type) where
  facet : Facet
  key : κ
  state : PromiseState ν
  deriving DecidableEq

/-- A reaction that is due, with the value it is called with. -/
structure Job (κ ν : Type) where
  facet : Facet
  key : κ
  value : NameValue ν
  deriving DecidableEq

/-- What was done about a key. -/
inductive Event (ν : Type) where
  | reserved
  | given (newValue adminValue : NameValue ν)
  | provided (child : ℕ)
  | deleted
  deriving DecidableEq

/-- A lookup that found a placeholder waiting, after the given number of events. -/
structure Lookup (κ : Type) where
  facet : Facet
  key : κ
  kit : ℕ
  since : ℕ
  deriving DecidableEq

/-- What `provideChild` returned, after the given number of events. -/
structure Provided (κ ν : Type) where
  key : κ
  nameHub : NameValue ν
  nameAdmin : NameValue ν
  since : ℕ
  deriving DecidableEq

structure Hub (κ ν : Type) where
  /-- `keyToAdmin` and `keyToValue`. -/
  vmap : Facet → Table κ (NameValue ν) := fun _ => ∅
  /-- `keyToAdminPK` and `keyToPK`, with the kits by their numbers. -/
  pmap : Facet → Table κ ℕ := fun _ => ∅
  kits : List (PromiseKit κ ν) := []
  jobs : List (Job κ ν) := []
  /-- The reactions that have thrown. -/
  threw : List (Job κ ν) := []
  /-- The calls of `provideChild` that wait for the reservations in the child they have made. -/
  awaiting : List (κ × ℕ) := []
  children : ℕ := 0
  /-- The calls of `provideChild` that have thrown. -/
  refused : List κ := []
  log : List (κ × Event ν) := []
  lookups : List (Lookup κ) := []
  provided : List (Provided κ ν) := []

variable {κ ν : Type} [DecidableEq κ]

namespace Hub

abbrev keyToValue (s : Hub κ ν) : Table κ (NameValue ν) := s.vmap .value

abbrev keyToAdmin (s : Hub κ ν) : Table κ (NameValue ν) := s.vmap .admin

abbrev keyToPK (s : Hub κ ν) : Table κ ℕ := s.pmap .value

abbrev keyToAdminPK (s : Hub κ ν) : Table κ ℕ := s.pmap .admin

section Reading

def has (s : Hub κ ν) (key : κ) : Bool := s.keyToValue.has key || s.keyToPK.has key

/-- The keys of both maps are disjoint. -/
def keys (s : Hub κ ν) : List κ := s.keyToValue.keys ++ s.keyToPK.keys

/-- What becomes of the promise that `lookup` or `lookupAdmin` returns for the key, as far as it
is decided. A key that is not found is refused. -/
def lookup (s : Hub κ ν) (facet : Facet) (key : κ) : PromiseState ν :=
  match (s.vmap facet).lookup key with
  | some value => .fulfilled value
  | none =>
    match (s.pmap facet).lookup key with
    | some pk => (s.kits[pk]?.map (·.state)).getD .pending
    | none => .rejected

end Reading

section Kits

/-- A promise that is settled stays as it is. -/
def settle (s : Hub κ ν) (pk : ℕ) (state : PromiseState ν) : Hub κ ν :=
  match s.kits[pk]? with
  | some ⟨facet, key, .pending⟩ => { s with kits := s.kits.set pk ⟨facet, key, state⟩ }
  | _ => s

def resolve (s : Hub κ ν) (pk : ℕ) (value : NameValue ν) : Hub κ ν :=
  match s.kits[pk]? with
  | some ⟨facet, key, .pending⟩ =>
    { s.settle pk (.fulfilled value) with jobs := s.jobs ++ [⟨facet, key, value⟩] }
  | _ => s

def makePromiseKit (s : Hub κ ν) (facet : Facet) (key : κ) : Hub κ ν :=
  { s with
    pmap := Function.update s.pmap facet ((s.pmap facet).insert key s.kits.length)
    kits := s.kits ++ [⟨facet, key, .pending⟩] }

end Kits

section Writing

def reserveFacet (s : Hub κ ν) (facet : Facet) (key : κ) : Hub κ ν :=
  if (s.pmap facet).has key then s else s.makePromiseKit facet key

def reserve (s : Hub κ ν) (key : κ) : Hub κ ν :=
  let t := if s.keyToValue.has key then s else (s.reserveFacet .admin key).reserveFacet .value key
  { t with log := s.log ++ [(key, .reserved)] }

/-- A key that is there is set, and one that is not is initialized. -/
def writeFacet (s : Hub κ ν) (facet : Facet) (key : κ) (value : NameValue ν) : Hub κ ν :=
  match (s.pmap facet).lookup key with
  | some old => s.resolve old value
  | none =>
    { s with vmap := Function.update s.vmap facet ((s.vmap facet).insert key value) }

/-- The loop of `update`. -/
def write (s : Hub κ ν) (key : κ) (newValue adminValue : NameValue ν) : Hub κ ν :=
  (s.writeFacet .admin key adminValue).writeFacet .value key newValue

def update (s : Hub κ ν) (key : κ) (newValue adminValue : NameValue ν) : Hub κ ν :=
  { s.write key newValue adminValue with log := s.log ++ [(key, .given newValue adminValue)] }

/-- The value that is returned, and the hub. -/
def default (s : Hub κ ν) (key : κ) (newValue adminValue : NameValue ν) :
    NameValue ν × Hub κ ν :=
  match s.keyToValue.lookup key with
  | some value => (value, s)
  | none => (newValue, s.update key newValue adminValue)

/-- `none` where it throws: the key is not already initialized. -/
def set (s : Hub κ ν) (key : κ) (newValue adminValue : NameValue ν) : Option (Hub κ ν) :=
  if s.keyToValue.has key then some (s.update key newValue adminValue) else none

def rejectFacet (s : Hub κ ν) (facet : Facet) (key : κ) : Hub κ ν :=
  match (s.pmap facet).lookup key with
  | some old => s.settle old .rejected
  | none => s

def delete (s : Hub κ ν) (key : κ) : Hub κ ν :=
  let t := (s.rejectFacet .admin key).rejectFacet .value key
  { t with
    vmap := fun facet => (t.vmap facet).erase key
    pmap := fun facet => (t.pmap facet).erase key
    log := s.log ++ [(key, .deleted)] }

/-- Up to where it returns, throws or waits. A key with an admin should have a value. The child is
made before it waits. -/
def provideChild (s : Hub κ ν) (key : κ) : Hub κ ν :=
  match s.keyToAdmin.lookup key with
  | some childAdmin =>
    match s.keyToValue.lookup key with
    | some childHub =>
      { s with provided := s.provided ++ [⟨key, childHub, childAdmin, s.log.length⟩] }
    | none => { s with refused := s.refused ++ [key] }
  | none =>
    { s with awaiting := s.awaiting ++ [(key, s.children)], children := s.children + 1 }

/-- The call goes on when the reservations in the child are made. -/
def childReserved (s : Hub κ ν) (i : ℕ) : Option (Hub κ ν) :=
  match s.awaiting[i]? with
  | none => none
  | some (key, child) =>
    let log := s.log ++ [(key, .provided child)]
    some { s.write key (.childHub child) (.childAdmin child) with
      awaiting := s.awaiting.eraseIdx i
      log
      provided := s.provided ++ [⟨key, .childHub child, .childAdmin child, log.length⟩] }

end Writing

/-- The first reaction that is due moves its value. A key that is there cannot be initialized, and
its placeholder then stays. -/
def react (s : Hub κ ν) : Option (Hub κ ν) :=
  match s.jobs with
  | [] => none
  | job :: jobs =>
    if (s.vmap job.facet).has job.key then some { s with jobs, threw := s.threw ++ [job] }
    else
      some { s with
        jobs
        vmap := Function.update s.vmap job.facet ((s.vmap job.facet).insert job.key job.value)
        pmap := Function.update s.pmap job.facet ((s.pmap job.facet).erase job.key) }

/-- A lookup that finds a placeholder waiting is answered by what becomes of it. -/
def lookedUp (s : Hub κ ν) (facet : Facet) (key : κ) : Hub κ ν :=
  match (s.pmap facet).lookup key, s.lookup facet key with
  | some pk, .pending => { s with lookups := s.lookups ++ [⟨facet, key, pk, s.log.length⟩] }
  | _, _ => s

end Hub

inductive Action (κ ν : Type) where
  | reserve (key : κ)
  | default (key : κ) (newValue adminValue : NameValue ν)
  | set (key : κ) (newValue adminValue : NameValue ν)
  | update (key : κ) (newValue adminValue : NameValue ν)
  | delete (key : κ)
  | provideChild (key : κ)
  | childReserved (i : ℕ)
  | lookup (facet : Facet) (key : κ)
  | react

def Hub.step (s : Hub κ ν) : Action κ ν → Option (Hub κ ν)
  | .reserve key => some (s.reserve key)
  | .default key newValue adminValue => some (s.default key newValue adminValue).2
  | .set key newValue adminValue => s.set key newValue adminValue
  | .update key newValue adminValue => some (s.update key newValue adminValue)
  | .delete key => some (s.delete key)
  | .provideChild key => some (s.provideChild key)
  | .childReserved i => s.childReserved i
  | .lookup facet key => some (s.lookedUp facet key)
  | .react => s.react

def nameHub (κ ν : Type) [DecidableEq κ] : TransitionSystem (Hub κ ν) (Action κ ν) where
  init s := s = {}
  step := Hub.step

end AgoricSdk.NameHub
