import AgoricSdk.Lib.Transition
import AgoricSdk.Portfolio.Delegation

/-!
The transfer of a portfolio from its Agoric owner to an EVM account. The current time is asked
of the timer service before every step, and the answers, the wakeups and the requests to set
and cancel wakeups travel between the two vats, in each direction in the order in which they
were sent. All transfers of a portfolio share one waker, which is its own cancel token.
-/

namespace AgoricSdk.Portfolio

open StateProgram

section Messages

/-- What goes on when the time is known. -/
inductive TransferCall where
  | initiate (offer : ℕ) (evmAddress : String) (deadline : ℕ)
  | complete (signer : String) (chainId : ℕ)
  deriving DecidableEq

inductive TimerRequest where
  | getCurrentTimestamp (call : TransferCall)
  | setWakeup (absValue : ℕ)
  | cancel
  deriving DecidableEq

inductive TimerMessage where
  | currentTimestamp (absValue : ℕ) (call : TransferCall)
  | wake (absValue : ℕ)
  deriving DecidableEq

inductive TransferResult where
  | accepted (sourceAccountId : String)
  | rejected (reason : String)
  deriving DecidableEq

structure Designation where
  offer : ℕ
  evmAddress : String
  deadline : ℕ
  deriving DecidableEq

end Messages

variable {δ : Type}

/-- The portfolio, the vows for the results of offers, and the timer service. -/
structure TransferWorld (δ : Type) where
  portfolio : PortfolioState δ
  /-- The offer whose result the pending transfer settles. -/
  resolver : Option ℕ := none
  offers : ℕ := 0
  initiated : List Designation := []
  settled : List (ℕ × TransferResult) := []
  clock : ℕ
  wakeups : List ℕ := []
  toTimer : List TimerRequest := []
  toPortfolio : List TimerMessage := []

namespace TransferWorld

def send (request : TimerRequest) (w : TransferWorld δ) : TransferWorld δ :=
  { w with toTimer := w.toTimer ++ [request] }

def settle (offer : ℕ) (result : TransferResult) (w : TransferWorld δ) : TransferWorld δ :=
  { w with settled := w.settled ++ [(offer, result)] }

def settlePending (result : TransferResult) (w : TransferWorld δ) : TransferWorld δ :=
  match w.resolver with
  | none => w
  | some offer => settle offer result { w with resolver := none }

/-- Cancel the expiry wakeup of the pending ownership transfer. -/
def cancelExpiry (w : TransferWorld δ) : TransferWorld δ := w.send .cancel

/-- Designate a new owner, superseding any previous designation. -/
def initiate (offer : ℕ) (evmAddress : String) (deadline now : ℕ) (w : TransferWorld δ) :
    TransferWorld δ :=
  match initiateTransfer evmAddress deadline now w.portfolio with
  | .error reason _ => w.settle offer (.rejected reason)
  | .ok _ portfolio =>
    let superseded := if w.portfolio.pendingOwnerTransfer.isSome then
      (w.settlePending (.rejected "superseded by a newer ownership transfer")).cancelExpiry else w
    let designated : TransferWorld δ := { superseded with
      portfolio
      resolver := some offer
      initiated := w.initiated ++ [⟨offer, evmAddress, deadline⟩] }
    designated.send (.setWakeup (deadline + 1))

/-- Expire the pending ownership transfer. -/
def expire (w : TransferWorld δ) : TransferWorld δ :=
  match w.portfolio.pendingOwnerTransfer with
  | none => w
  | some pending =>
    { w with portfolio := finalState expireTransfer w.portfolio }.settlePending
      (.rejected s!"ownership transfer expired at {pending.deadlineTimestampSeconds}")

/-- Any wakeup expires the pending transfer if its deadline has passed. -/
def wake (absValue : ℕ) (w : TransferWorld δ) : TransferWorld δ :=
  match w.portfolio.pendingOwnerTransfer with
  | none => w
  | some pending => if pending.deadlineTimestampSeconds < absValue then w.expire else w

/-- An overdue transfer is expired before the call throws. -/
def complete (signer : String) (chainId now : ℕ) (w : TransferWorld δ) : TransferWorld δ :=
  match completeTransfer signer chainId now w.portfolio with
  | .ok _ portfolio =>
    ({ w with portfolio }.settlePending
      (.accepted (portfolio.sourceAccountId.getD ""))).cancelExpiry
  | .error _ portfolio =>
    if w.portfolio.pendingOwnerTransfer.isSome ∧ portfolio.pendingOwnerTransfer = none then
      w.expire.cancelExpiry
    else w

def call (absValue : ℕ) (w : TransferWorld δ) : TransferCall → TransferWorld δ
  | .initiate offer evmAddress deadline => w.initiate offer evmAddress deadline absValue
  | .complete signer chainId => w.complete signer chainId absValue

end TransferWorld

/-- `0x` and 40 hexadecimal digits. -/
def isEvmAddressShape (x : String) : Bool :=
  x.startsWith "0x" && x.length = 42 && (x.toList.drop 2).all fun c =>
    c.isDigit || ('a' ≤ c && c ≤ 'f') || ('A' ≤ c && c ≤ 'F')

/-- The offers of the Agoric owner but for the transfer. -/
def OwnerRequest.isOffer : OwnerRequest → Bool
  | .offerRebalance _ | .offerDeposit _ _ | .offerSimpleRebalance _ _ | .offerWithdraw _ => true
  | _ => false

/-- The requests of an EVM owner. -/
def OwnerRequest.isEvm : OwnerRequest → Bool
  | .evmChangePermissions _ _ | .evmRevoke _ | .evmDeposit _ _ | .evmRebalance _
  | .evmWithdraw _ _ => true
  | _ => false

def OwnerRequest.isTransfer : OwnerRequest → Bool
  | .initiateTransfer _ _ _ | .wakeTransfer _ | .completeTransfer _ _ _ => true
  | _ => false

inductive TransferEvent where
  | request (request : OwnerRequest)
  | transferOwnership (evmAddress : String) (deadline : ℕ)
  | acceptOwnership (signer : String) (chainId : ℕ)
  | timerTakes
  | timerFires (i : ℕ)
  | portfolioTakes
  | clock (now : ℕ)

/-- The timer service takes the next request. A wakeup for a time past fires at once. -/
def timerTakes (w : TransferWorld δ) : Option (TransferWorld δ) :=
  match w.toTimer with
  | [] => none
  | .getCurrentTimestamp call :: toTimer =>
    some { w with toTimer, toPortfolio := w.toPortfolio ++ [.currentTimestamp w.clock call] }
  | .setWakeup absValue :: toTimer =>
    some <| if absValue ≤ w.clock then
      { w with toTimer, toPortfolio := w.toPortfolio ++ [.wake w.clock] }
    else { w with toTimer, wakeups := w.wakeups ++ [absValue] }
  | .cancel :: toTimer => some { w with toTimer, wakeups := [] }

def portfolioTakes (w : TransferWorld δ) : Option (TransferWorld δ) :=
  match w.toPortfolio with
  | [] => none
  | .currentTimestamp absValue call :: toPortfolio =>
    some (TransferWorld.call absValue { w with toPortfolio } call)
  | .wake absValue :: toPortfolio => some (TransferWorld.wake absValue { w with toPortfolio })

def transferStep (w : TransferWorld δ) : TransferEvent → Option (TransferWorld δ)
  | .request request =>
    if request.isTransfer then none
    else some { w with portfolio := finalState (ownerRequest request) w.portfolio }
  | .transferOwnership evmAddress deadline =>
    some <| match insistAgoricOwned w.portfolio with
      | .error _ _ => w
      | .ok _ _ =>
        if isEvmAddressShape evmAddress then
          { w with offers := w.offers + 1 }.send
            (.getCurrentTimestamp (.initiate w.offers evmAddress deadline))
        else w
  | .acceptOwnership signer chainId =>
    some (w.send (.getCurrentTimestamp (.complete signer chainId)))
  | .timerTakes => timerTakes w
  | .timerFires i =>
    match w.wakeups[i]? with
    | none => none
    | some absValue =>
      if absValue ≤ w.clock then
        some { w with
          wakeups := w.wakeups.eraseIdx i
          toPortfolio := w.toPortfolio ++ [.wake w.clock] }
      else none
  | .portfolioTakes => portfolioTakes w
  | .clock now => if w.clock ≤ now then some { w with clock := now } else none

/-- At the start no transfer is pending. -/
def ownershipTransfer (δ : Type) : TransitionSystem (TransferWorld δ) TransferEvent where
  init w := ∃ portfolio clock, portfolio.pendingOwnerTransfer = none ∧ w = { portfolio, clock }
  step := transferStep

end AgoricSdk.Portfolio
