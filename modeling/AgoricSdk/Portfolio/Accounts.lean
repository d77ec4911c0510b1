import AgoricSdk.Lib.Table

/-!
The accounts of a portfolio: for each chain the account's record, and while it
is made the vow that callers wait for. The manager hands out reservations, and a
watcher of each vow drops the pending entry in a later turn.
-/

namespace AgoricSdk.Portfolio

inductive SupportedChain where
  | Arbitrum
  | Avalanche
  | Base
  | Ethereum
  | Optimism
  | agoric
  | noble
  deriving DecidableEq

/-- `chain in AxelarChain` -/
def SupportedChain.isAxelar : SupportedChain → Bool
  | agoric | noble => false
  | _ => true

/-- The details are those of the chain's kind of account. -/
structure AccountInfo (δ : Type) where
  chainName : SupportedChain
  details : δ
  err : Option String := none
  deriving DecidableEq

/-- `!info.err`: a record without an error, or with an empty one. -/
def AccountInfo.isOk {δ : Type} (info : AccountInfo δ) : Bool := info.err.getD "" = ""

/-- A vow kit is known by its number among those made. -/
abbrev VowId := Nat

inductive Settlement (δ : Type) where
  | fulfilled (info : AccountInfo δ)
  | rejected (reason : String)
  deriving DecidableEq

structure AccountsState (δ : Type) where
  accounts : Table SupportedChain (AccountInfo δ) := ∅
  accountsPending : Table SupportedChain VowId := ∅
  /-- The vows that are settled. -/
  settled : Table VowId (Settlement δ) := ∅
  nextVow : VowId := 0
  /-- The watchers that did not run yet, each with its argument. -/
  watchers : Table VowId SupportedChain := ∅

inductive ReservationState where
  | new
  | pending
  | ok
  | failed
  deriving DecidableEq

/-- A vow to wait for, or one that is already fulfilled. -/
inductive Ready (δ : Type) where
  | vow (id : VowId)
  | info (info : AccountInfo δ)
  deriving DecidableEq

variable {δ : Type}

/-- Settling a vow that is settled does nothing. -/
def settle (vow : VowId) (outcome : Settlement δ) (s : AccountsState δ) : AccountsState δ :=
  if s.settled.has vow then s else { s with settled := s.settled.insert vow outcome }

def reserveAccountState (chainName : SupportedChain) (s : AccountsState δ) :
    ReservationState × Ready δ × AccountsState δ :=
  match s.accountsPending.lookup chainName with
  | some vow => (.pending, .vow vow, s)
  | none =>
    let reserve (state : ReservationState) : ReservationState × Ready δ × AccountsState δ :=
      (state, .vow s.nextVow, { s with
        nextVow := s.nextVow + 1
        watchers := s.watchers.insert s.nextVow chainName
        accountsPending := s.accountsPending.insert chainName s.nextVow })
    match s.accounts.lookup chainName with
    | none => reserve .new
    | some info => if info.isOk then (.ok, .info info, s) else reserve .failed

/-- The legacy wrapper: a reservation is told by the absence of a vow. -/
def reserveAccount (chainName : SupportedChain) (s : AccountsState δ) :
    Option (Ready δ) × AccountsState δ :=
  let (state, ready, s) := reserveAccountState chainName s
  (if state = .new then none else some ready, s)

/-- `none` when the chain has a record already. -/
def initAccountInfo (info : AccountInfo δ) (s : AccountsState δ) : Option (AccountsState δ) :=
  if s.accounts.has info.chainName then none
  else some { s with accounts := s.accounts.insert info.chainName info }

def resolveAccount (info : AccountInfo δ) (s : AccountsState δ) : AccountsState δ :=
  let s := match s.accountsPending.lookup info.chainName with
    | none => s
    | some pending => settle pending (.fulfilled info) s
  match s.accounts.lookup info.chainName with
  | some old =>
    { s with accounts := s.accounts.insert info.chainName { old with err := none } }
  | none => { s with accounts := s.accounts.insert info.chainName info }

def releaseAccount (chainName : SupportedChain) (reason : String) (s : AccountsState δ) :
    AccountsState δ :=
  let s := match s.accounts.lookup chainName with
    | none => s
    | some info =>
      { s with accounts := s.accounts.insert chainName { info with err := some reason } }
  match s.accountsPending.lookup chainName with
  | none => s
  | some vow =>
    let s := settle vow (.rejected reason) s
    { s with accountsPending := s.accountsPending.erase chainName }

def evmPendingAccounts (s : AccountsState δ) : List SupportedChain :=
  s.accountsPending.keys.filter SupportedChain.isAxelar

def startingNewFlow : String := "Error: starting new flow"

/-- What `startFlow` does to the accounts. -/
def releasePendingAccounts (s : AccountsState δ) : AccountsState δ :=
  (evmPendingAccounts s).foldl (fun s chainName => releaseAccount chainName startingNewFlow s) s

/-- `accountWatcher`, in both its methods. -/
def accountWatcher (chainName : SupportedChain) (s : AccountsState δ) : AccountsState δ :=
  { s with accountsPending := s.accountsPending.erase chainName }

end AgoricSdk.Portfolio
