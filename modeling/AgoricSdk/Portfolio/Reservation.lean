import AgoricSdk.Lib.Transition
import AgoricSdk.Portfolio.Accounts

/-!
The reservation of a chain's account over whole runs. Callers reserve, and end
what they hold; flows start and take reservations away; watchers run in later
turns. A history keeps who was told to hold what and how each reservation
ended, which the state of the portfolio is measured against.
-/

namespace AgoricSdk.Portfolio

/-- A reservation that was made, and whether a caller was told to hold it. -/
structure Reservation where
  chainName : SupportedChain
  held : Bool
  deriving DecidableEq

structure World (δ : Type) where
  accounts : AccountsState δ := {}
  reservations : Table VowId Reservation := ∅
  /-- How its holder, or a new flow, ended a reservation. -/
  outcomes : Table VowId (Settlement δ) := ∅
  /-- The last reservation made for each chain. -/
  latest : Table SupportedChain VowId := ∅

inductive AccountAction (δ : Type) where
  | reserveAccountState (chainName : SupportedChain)
  | reserveAccount (chainName : SupportedChain)
  | initAccountInfo (holder : VowId) (details : δ) (err : Option String)
  | resolveAccount (holder : VowId) (details : δ) (err : Option String)
  | releaseAccount (holder : VowId) (reason : String)
  | startFlow
  | accountWatcher (vow : VowId)
  deriving DecidableEq

variable {δ : Type}

namespace World

/-- The first end of a reservation is its outcome. -/
def ended (w : World δ) (r : VowId) (outcome : Settlement δ) : World δ :=
  if w.outcomes.has r then w else { w with outcomes := w.outcomes.insert r outcome }

def reserved (w : World δ) (chainName : SupportedChain) (held : ReservationState → Bool) :
    World δ :=
  match reserveAccountState chainName w.accounts with
  | (state, .vow vow, accounts) =>
    if state = .pending then w
    else { w with
      accounts
      reservations := w.reservations.insert vow { chainName, held := held state }
      latest := w.latest.insert chainName vow }
  | (_, .info _, _) => w

/-- The chain whose reservation a caller was told to hold. -/
def heldChain (w : World δ) (holder : VowId) : Option SupportedChain :=
  match w.reservations.lookup holder with
  | some r => if r.held then some r.chainName else none
  | none => none

/-- A new flow takes a pending account away. -/
def released (w : World δ) (chainName : SupportedChain) : World δ :=
  let w := match w.accounts.accountsPending.lookup chainName with
    | some r => w.ended r (.rejected startingNewFlow)
    | none => w
  { w with accounts := releaseAccount chainName startingNewFlow w.accounts }

def startFlow (w : World δ) : World δ := (evmPendingAccounts w.accounts).foldl released w

theorem released_accounts (w : World δ) (chainName : SupportedChain) :
    (w.released chainName).accounts = releaseAccount chainName startingNewFlow w.accounts := by
  unfold released ended
  split
  · split <;> rfl
  · rfl

def step (w : World δ) : AccountAction δ → Option (World δ)
  | .reserveAccountState chainName =>
    some (w.reserved chainName fun state => state = .new ∨ state = .failed)
  | .reserveAccount chainName => some (w.reserved chainName fun state => state = .new)
  | .initAccountInfo holder details err => do
    let chainName ← w.heldChain holder
    let info : AccountInfo δ := { chainName, details, err }
    match Portfolio.initAccountInfo info w.accounts with
    | none => some w
    | some accounts => some { w with accounts }
  | .resolveAccount holder details err => do
    let chainName ← w.heldChain holder
    let info : AccountInfo δ := { chainName, details, err }
    some { w.ended holder (.fulfilled info) with
      accounts := Portfolio.resolveAccount info w.accounts }
  | .releaseAccount holder reason => do
    let chainName ← w.heldChain holder
    some { w.ended holder (.rejected reason) with
      accounts := Portfolio.releaseAccount chainName reason w.accounts }
  | .startFlow => some w.startFlow
  | .accountWatcher vow => do
    let chainName ← w.accounts.watchers.lookup vow
    if w.accounts.settled.has vow then
      let accounts := { w.accounts with watchers := w.accounts.watchers.erase vow }
      some { w with accounts := Portfolio.accountWatcher chainName accounts }
    else none

end World

def accountsSystem (δ : Type) : TransitionSystem (World δ) (AccountAction δ) where
  init w := w = {}
  step := World.step

section Conditions

/-- The pending entry of the chain, if there is one, has a vow that is settled. -/
def NoneWorking (s : AccountsState δ) (chainName : SupportedChain) : Prop :=
  ∀ vow ∈ s.accountsPending.lookup chainName, s.settled.has vow = true

/-- The caller's reservation is the pending one and is not ended. -/
def Current (s : AccountsState δ) (holder : VowId) (chainName : SupportedChain) : Prop :=
  s.accountsPending.lookup chainName = some holder ∧ s.settled.has holder = false

/-- The chain's record, if it has one, is without an error. -/
def RecordOk (s : AccountsState δ) (chainName : SupportedChain) : Prop :=
  ∃ info ∈ s.accounts.lookup chainName, info.isOk = true

instance (s : AccountsState δ) (chainName : SupportedChain) :
    Decidable (NoneWorking s chainName) := by
  unfold NoneWorking; infer_instance

instance (s : AccountsState δ) (holder : VowId) (chainName : SupportedChain) :
    Decidable (Current s holder chainName) := by
  unfold Current; infer_instance

instance (s : AccountsState δ) (chainName : SupportedChain) : Decidable (RecordOk s chainName) := by
  unfold RecordOk; infer_instance

/-- A holder acts on a reservation that it still holds, or without effect; a flow
starts and a watcher runs while they take nothing from a holder. -/
def Cooperative (w : World δ) : AccountAction δ → Prop
  | .reserveAccountState _ => True
  | .reserveAccount chainName => w.accounts.accountsPending.has chainName = true ∨
      w.accounts.accounts.has chainName = false ∨ RecordOk w.accounts chainName
  | .initAccountInfo holder _ _ => ∀ chainName ∈ w.heldChain holder,
      Current w.accounts holder chainName ∨ w.accounts.accounts.has chainName = true
  | .resolveAccount holder _ err => ∀ chainName ∈ w.heldChain holder,
      Current w.accounts holder chainName ∧
        (w.accounts.accounts.has chainName = true ∨ err.getD "" = "") ∨
      NoneWorking w.accounts chainName ∧ RecordOk w.accounts chainName
  | .releaseAccount holder reason => ∀ chainName ∈ w.heldChain holder,
      (Current w.accounts holder chainName ∨
        w.accounts.accountsPending.has chainName = false ∧ ¬ RecordOk w.accounts chainName) ∧
      (w.accounts.accounts.has chainName = true → reason ≠ "")
  | .startFlow => ∀ chainName ∈ evmPendingAccounts w.accounts, ¬ NoneWorking w.accounts chainName
  | .accountWatcher vow => ∀ chainName ∈ w.accounts.watchers.lookup vow,
      NoneWorking w.accounts chainName

instance (w : World δ) (a : AccountAction δ) : Decidable (Cooperative w a) := by
  unfold Cooperative
  cases a <;> infer_instance

end Conditions

section Property

/-- A caller was told to hold the chain's reservation, and nothing ended it yet. -/
def Holding (w : World δ) (r : VowId) (chainName : SupportedChain) : Prop :=
  w.reservations.lookup r = some { chainName, held := true } ∧ w.outcomes.lookup r = none

/-- The state that the records of a chain describe is that of its last reservation. -/
def Describes (w : World δ) (chainName : SupportedChain) : Prop :=
  match w.latest.lookup chainName with
  | none => w.accounts.accounts.lookup chainName = none ∧
      w.accounts.accountsPending.lookup chainName = none
  | some r =>
    match w.outcomes.lookup r with
    | none => w.accounts.accountsPending.lookup chainName = some r
    | some (.fulfilled _) => RecordOk w.accounts chainName
    | some (.rejected _) => w.accounts.accountsPending.lookup chainName = none ∧
        ¬ RecordOk w.accounts chainName

structure ReservationsExclusive (w : World δ) : Prop where
  oneHolder : ∀ r r' chainName, Holding w r chainName → Holding w r' chainName → r = r'
  /-- A reservation is pending until its own end. -/
  undisturbed : ∀ r res, w.reservations.lookup r = some res → w.outcomes.lookup r = none →
    w.accounts.accountsPending.lookup res.chainName = some r ∧ res.held = true
  /-- The vow of a reservation is settled as the reservation ended, and not before. -/
  settles : ∀ r, w.accounts.settled.lookup r = w.outcomes.lookup r
  describes : ∀ chainName, Describes w chainName

end Property

section Invariant

/-- The property, with what ties the pending entries to the reservations made. -/
structure Kept (w : World δ) : Prop where
  undisturbed : ∀ r res, w.reservations.lookup r = some res → w.outcomes.lookup r = none →
    w.accounts.accountsPending.lookup res.chainName = some r ∧ res.held = true
  settles : ∀ r, w.accounts.settled.lookup r = w.outcomes.lookup r
  describes : ∀ chainName, Describes w chainName
  pendingLatest : ∀ chainName r, w.accounts.accountsPending.lookup chainName = some r →
    w.latest.lookup chainName = some r
  latestMade : ∀ chainName r, w.latest.lookup chainName = some r →
    ∃ held, w.reservations.lookup r = some { chainName, held }
  fresh : ∀ r, w.accounts.nextVow ≤ r →
    w.reservations.lookup r = none ∧ w.outcomes.lookup r = none

variable {w w' : World δ} {r : VowId} {c : SupportedChain}

theorem Kept.exclusive (h : Kept w) : ReservationsExclusive w where
  oneHolder r r' c hr hr' := by
    have hp := (h.undisturbed r _ hr.1 hr.2).1
    have hp' := (h.undisturbed r' _ hr'.1 hr'.2).1
    exact Option.some.inj (hp.symm.trans hp')
  undisturbed := h.undisturbed
  settles := h.settles
  describes := h.describes

theorem kept_empty : Kept ({} : World δ) where
  undisturbed _ _ h := by cases h
  settles _ := rfl
  describes _ := ⟨rfl, rfl⟩
  pendingLatest _ _ h := by cases h
  latestMade _ _ h := by cases h
  fresh _ _ := ⟨rfl, rfl⟩

theorem Kept.settled_has_iff (h : Kept w) (r : VowId) :
    w.accounts.settled.has r = true ↔ (w.outcomes.lookup r).isSome = true := by
  rw [Table.has, h.settles r]

theorem Kept.reservation_of_pending (h : Kept w)
    (hpending : w.accounts.accountsPending.lookup c = some r) :
    ∃ held, w.reservations.lookup r = some { chainName := c, held } :=
  h.latestMade c r (h.pendingLatest c r hpending)

theorem Kept.ne_of_pending (h : Kept w) (hpending : w.accounts.accountsPending.lookup c = some r)
    {c' : SupportedChain} (hc : c' ≠ c) {r' : VowId} (hlatest : w.latest.lookup c' = some r') :
    r' ≠ r := by
  rintro rfl
  obtain ⟨held, hres⟩ := h.reservation_of_pending hpending
  obtain ⟨held', hres'⟩ := h.latestMade c' r' hlatest
  rw [hres] at hres'
  cases hres'
  exact hc rfl

theorem Describes.congr (h : Describes w c) (hlatest : w'.latest.lookup c = w.latest.lookup c)
    (houtcome : ∀ r, w.latest.lookup c = some r → w'.outcomes.lookup r = w.outcomes.lookup r)
    (haccount : w'.accounts.accounts.lookup c = w.accounts.accounts.lookup c)
    (hpending : w'.accounts.accountsPending.lookup c = w.accounts.accountsPending.lookup c) :
    Describes w' c := by
  unfold Describes RecordOk at *
  rw [hlatest, haccount, hpending]
  cases hl : w.latest.lookup c with
  | none =>
    rw [hl] at h
    exact h
  | some r =>
    rw [hl] at h
    dsimp only at h ⊢
    rw [houtcome r hl]
    exact h

theorem Kept.reserve (h : Kept w) (hnone : w.accounts.accountsPending.lookup c = none) :
    Kept { w with
      accounts := { w.accounts with
        nextVow := w.accounts.nextVow + 1
        watchers := w.accounts.watchers.insert w.accounts.nextVow c
        accountsPending := w.accounts.accountsPending.insert c w.accounts.nextVow }
      reservations := w.reservations.insert w.accounts.nextVow { chainName := c, held := true }
      latest := w.latest.insert c w.accounts.nextVow } := by
  obtain ⟨-, hout⟩ := h.fresh w.accounts.nextVow (Nat.le_refl _)
  constructor
  case undisturbed =>
    intro r res hres hr
    dsimp only at hres hr ⊢
    rw [Table.lookup_insert] at hres ⊢
    by_cases hn : r = w.accounts.nextVow
    · rw [if_pos hn] at hres
      cases hres
      rw [if_pos rfl, hn]
      exact ⟨rfl, rfl⟩
    · rw [if_neg hn] at hres
      obtain ⟨hpending, hheld⟩ := h.undisturbed r res hres hr
      have hc : res.chainName ≠ c := by
        intro he
        rw [he, hnone] at hpending
        cases hpending
      rw [if_neg hc]
      exact ⟨hpending, hheld⟩
  case settles => exact h.settles
  case describes =>
    intro c'
    by_cases hc : c' = c
    · subst hc
      unfold Describes
      simp only [Table.lookup_insert, if_true, hout]
    · apply (h.describes c').congr
      · exact (Table.lookup_insert _ _ _ _).trans (if_neg hc)
      · exact fun _ _ => rfl
      · rfl
      · exact (Table.lookup_insert _ _ _ _).trans (if_neg hc)
  case pendingLatest =>
    intro c' r hr
    dsimp only at hr ⊢
    rw [Table.lookup_insert] at hr ⊢
    by_cases hc : c' = c
    · rwa [if_pos hc] at hr ⊢
    · rw [if_neg hc] at hr ⊢
      exact h.pendingLatest c' r hr
  case latestMade =>
    intro c' r hr
    dsimp only at hr ⊢
    rw [Table.lookup_insert] at hr ⊢
    by_cases hc : c' = c
    · rw [if_pos hc] at hr
      cases hr
      exact ⟨true, by rw [if_pos rfl, hc]⟩
    · rw [if_neg hc] at hr
      obtain ⟨held, hres⟩ := h.latestMade c' r hr
      have hn : r ≠ w.accounts.nextVow := by
        rintro rfl
        rw [(h.fresh _ (Nat.le_refl _)).1] at hres
        cases hres
      exact ⟨held, by rw [if_neg hn, hres]⟩
  case fresh =>
    intro r hr
    have hlt : w.accounts.nextVow < r := hr
    dsimp only
    rw [Table.lookup_insert, if_neg (Nat.ne_of_gt hlt)]
    exact h.fresh r (Nat.le_of_lt hlt)

theorem Kept.reserved (h : Kept w) (c : SupportedChain) {held : ReservationState → Bool}
    (hnew : held .new = true)
    (hfailed : w.accounts.accountsPending.lookup c = none → w.accounts.accounts.has c = true →
      ¬ RecordOk w.accounts c → held .failed = true) : Kept (w.reserved c held) := by
  unfold World.reserved reserveAccountState
  cases hpending : w.accounts.accountsPending.lookup c with
  | some r =>
    simp only [if_true]
    exact h
  | none =>
    cases haccount : w.accounts.accounts.lookup c with
    | none =>
      simp only [reduceCtorEq, if_false, hnew]
      exact h.reserve hpending
    | some info =>
      by_cases hok : info.isOk = true
      · simp only [if_pos hok]
        exact h
      · have hheld : held .failed = true := by
          apply hfailed hpending (Table.has_of_lookup haccount)
          rintro ⟨info', hinfo, hok'⟩
          rw [haccount] at hinfo
          cases hinfo
          exact hok hok'
        simp only [if_neg hok, reduceCtorEq, if_false, hheld]
        exact h.reserve hpending

theorem reservation_of_heldChain (h : w.heldChain r = some c) :
    w.reservations.lookup r = some { chainName := c, held := true } := by
  unfold World.heldChain at h
  cases hres : w.reservations.lookup r with
  | none =>
    rw [hres] at h
    cases h
  | some res =>
    obtain ⟨chainName, held⟩ := res
    cases held with
    | false =>
      rw [hres] at h
      cases h
    | true =>
      rw [hres] at h
      cases h
      rfl

theorem Kept.over (h : Kept w) (hheld : w.heldChain r = some c)
    (hnone : NoneWorking w.accounts c) : w.outcomes.has r = true := by
  by_contra hopen
  have hout : w.outcomes.lookup r = none := by simpa [Table.has] using hopen
  obtain ⟨hpending, -⟩ := h.undisturbed r _ (reservation_of_heldChain hheld) hout
  have hsettled := (h.settled_has_iff r).mp (hnone r hpending)
  rw [hout] at hsettled
  cases hsettled

theorem Kept.init (h : Kept w) (info : AccountInfo δ)
    (hpending : w.accounts.accountsPending.lookup info.chainName = some r)
    (hopen : w.accounts.settled.has r = false) :
    Kept { w with accounts := { w.accounts with
      accounts := w.accounts.accounts.insert info.chainName info } } :=
  { h with
    describes := by
      intro c'
      by_cases hc : c' = info.chainName
      · subst hc
        have hout : w.outcomes.lookup r = none := by
          have hnot := (h.settled_has_iff r).not.mp (by simp [hopen])
          simpa using hnot
        unfold Describes
        simp only [h.pendingLatest _ r hpending, hout]
        exact hpending
      · exact (h.describes c').congr rfl (fun _ _ => rfl)
          ((Table.lookup_insert _ _ _ _).trans (if_neg hc)) rfl }

theorem outcomes_ended (w : World δ) (r : VowId) (o : Settlement δ)
    (hopen : w.outcomes.lookup r = none) (r' : VowId) :
    (w.ended r o).outcomes.lookup r' = if r' = r then some o else w.outcomes.lookup r' := by
  unfold World.ended
  rw [if_neg (by simp [Table.has, hopen])]
  exact Table.lookup_insert _ _ _ _

theorem settled_settle (s : AccountsState δ) (o : Settlement δ) (hopen : s.settled.has r = false)
    (r' : VowId) : (settle r o s).settled.lookup r' =
      if r' = r then some o else s.settled.lookup r' := by
  unfold settle
  rw [if_neg (by simp [hopen])]
  exact Table.lookup_insert _ _ _ _

/-- The pending reservation of a chain ends: its vow is settled with its outcome,
and the records describe that. -/
theorem Kept.end_ (h : Kept w) (hpending : w.accounts.accountsPending.lookup c = some r)
    (hopen : w.accounts.settled.has r = false) (o : Settlement δ) {s : AccountsState δ}
    (hsettled : s.settled = (settle r o w.accounts).settled)
    (hnext : s.nextVow = w.accounts.nextVow)
    (hothers : ∀ c' ≠ c, s.accounts.lookup c' = w.accounts.accounts.lookup c' ∧
      s.accountsPending.lookup c' = w.accounts.accountsPending.lookup c')
    (hstays : ∀ r', s.accountsPending.lookup c = some r' → r' = r)
    (hrecord : match o with
      | .fulfilled _ => RecordOk s c
      | .rejected _ => s.accountsPending.lookup c = none ∧ ¬ RecordOk s c) :
    Kept { w.ended r o with accounts := s } := by
  have hout : w.outcomes.lookup r = none := by
    have hnot := (h.settled_has_iff r).not.mp (by simp [hopen])
    simpa using hnot
  have hlatest := h.pendingLatest c r hpending
  have houtcomes := outcomes_ended w r o hout
  have hreservations : (w.ended r o).reservations = w.reservations := by
    unfold World.ended
    split <;> rfl
  have hlatests : (w.ended r o).latest = w.latest := by
    unfold World.ended
    split <;> rfl
  constructor
  case undisturbed =>
    intro r' res hres hr'
    dsimp only at hres hr' ⊢
    rw [hreservations] at hres
    rw [houtcomes] at hr'
    split at hr'
    · cases hr'
    · rename_i hne
      obtain ⟨hp, hheld⟩ := h.undisturbed r' res hres hr'
      have hc : res.chainName ≠ c := by
        rintro rfl
        rw [hpending] at hp
        exact hne (Option.some.inj hp).symm
      rw [(hothers _ hc).2]
      exact ⟨hp, hheld⟩
  case settles =>
    intro r'
    dsimp only
    rw [hsettled, settled_settle _ _ hopen, houtcomes, h.settles]
  case describes =>
    intro c'
    by_cases hc : c' = c
    · subst hc
      unfold Describes
      simp only [hlatests, hlatest, houtcomes, if_true]
      cases o <;> exact hrecord
    · apply (h.describes c').congr
      · rw [hlatests]
      · intro r' hr'
        exact (houtcomes r').trans (if_neg (h.ne_of_pending hpending hc hr'))
      · exact (hothers c' hc).1
      · exact (hothers c' hc).2
  case pendingLatest =>
    intro c' r' hr'
    dsimp only at hr' ⊢
    rw [hlatests]
    by_cases hc : c' = c
    · subst hc
      rw [hstays r' hr']
      exact hlatest
    · rw [(hothers c' hc).2] at hr'
      exact h.pendingLatest c' r' hr'
  case latestMade =>
    intro c' r' hr'
    dsimp only at hr' ⊢
    rw [hlatests] at hr'
    rw [hreservations]
    exact h.latestMade c' r' hr'
  case fresh =>
    intro r' hr'
    dsimp only at hr' ⊢
    rw [hnext] at hr'
    obtain ⟨hres, hnone⟩ := h.fresh r' hr'
    have hne : r' ≠ r := by
      rintro rfl
      obtain ⟨held, hheld⟩ := h.reservation_of_pending hpending
      rw [hres] at hheld
      cases hheld
    rw [hreservations, houtcomes, if_neg hne]
    exact ⟨hres, hnone⟩

theorem settle_frame (s : AccountsState δ) (r : VowId) (o : Settlement δ) :
    (settle r o s).accounts = s.accounts ∧ (settle r o s).accountsPending = s.accountsPending ∧
      (settle r o s).nextVow = s.nextVow := by
  unfold settle
  split <;> exact ⟨rfl, rfl, rfl⟩

theorem settle_of_has {s : AccountsState δ} (h : s.settled.has r = true) (o : Settlement δ) :
    settle r o s = s := if_pos h

theorem recordOk_of_lookup {s : AccountsState δ} {info : AccountInfo δ}
    (h : s.accounts.lookup c = some info) : RecordOk s c ↔ info.isOk = true := by
  constructor
  · rintro ⟨info', hinfo, hok⟩
    rw [h] at hinfo
    cases hinfo
    exact hok
  · intro hok
    exact ⟨info, h, hok⟩

/-- What `resolveAccount` writes for the chain. -/
def resolvedRecord (info : AccountInfo δ) (s : AccountsState δ) : AccountInfo δ :=
  match s.accounts.lookup info.chainName with
  | some old => { old with err := none }
  | none => info

theorem resolveAccount_eq (info : AccountInfo δ) (s : AccountsState δ) {t : AccountsState δ}
    (ht : t = match s.accountsPending.lookup info.chainName with
      | none => s
      | some r => settle r (.fulfilled info) s) :
    resolveAccount info s =
      { t with accounts := s.accounts.insert info.chainName (resolvedRecord info s) } := by
  unfold resolveAccount resolvedRecord
  cases hp : s.accountsPending.lookup info.chainName with
  | none =>
    rw [hp] at ht
    rw [ht]
    dsimp only
    cases s.accounts.lookup info.chainName <;> rfl
  | some r =>
    rw [hp] at ht
    dsimp only at ht ⊢
    rw [← ht]
    have haccounts : t.accounts = s.accounts := by rw [ht, (settle_frame s _ _).1]
    rw [haccounts]
    cases s.accounts.lookup info.chainName <;> rfl

theorem resolvedRecord_isOk {info : AccountInfo δ} {s : AccountsState δ}
    (h : s.accounts.has info.chainName = true ∨ info.err.getD "" = "") :
    (resolvedRecord info s).isOk = true := by
  unfold resolvedRecord
  cases hlookup : s.accounts.lookup info.chainName with
  | some old => rfl
  | none =>
    have herr := h.resolve_left (by simp [Table.has, hlookup])
    simp [AccountInfo.isOk, herr]

theorem recordOk_resolveAccount {info : AccountInfo δ} {s : AccountsState δ}
    (h : s.accounts.has info.chainName = true ∨ info.err.getD "" = "") :
    RecordOk (resolveAccount info s) info.chainName := by
  rw [resolveAccount_eq info s rfl]
  apply (recordOk_of_lookup _).mpr (resolvedRecord_isOk h)
  exact (Table.lookup_insert _ _ _ _).trans (if_pos rfl)

theorem Kept.resolve (h : Kept w) {info : AccountInfo δ}
    (hcurrent : Current w.accounts r info.chainName)
    (hok : w.accounts.accounts.has info.chainName = true ∨ info.err.getD "" = "") :
    Kept { w.ended r (.fulfilled info) with accounts := resolveAccount info w.accounts } := by
  obtain ⟨hpending, hopen⟩ := hcurrent
  have hrecord := recordOk_resolveAccount hok
  have heq := resolveAccount_eq info w.accounts rfl
  rw [hpending] at heq
  obtain ⟨-, hpendings, hnext⟩ := settle_frame w.accounts r (.fulfilled info)
  apply h.end_ hpending hopen
  case hsettled => rw [heq]
  case hnext =>
    rw [heq]
    exact hnext
  case hothers =>
    intro c' hc
    rw [heq]
    exact ⟨(Table.lookup_insert _ _ _ _).trans (if_neg hc), by rw [hpendings]⟩
  case hstays =>
    intro r' hr'
    rw [heq] at hr'
    dsimp only at hr'
    rw [hpendings, hpending] at hr'
    exact (Option.some.inj hr').symm
  case hrecord => exact hrecord

theorem Kept.resolveAgain (h : Kept w) {info : AccountInfo δ}
    (hheld : w.heldChain r = some info.chainName) (hnone : NoneWorking w.accounts info.chainName)
    (hok : RecordOk w.accounts info.chainName) :
    Kept { w.ended r (.fulfilled info) with accounts := resolveAccount info w.accounts } := by
  have hover : w.ended r (.fulfilled info) = w := if_pos (h.over hheld hnone)
  obtain ⟨old, hlookup, -⟩ := id hok
  have hrecord := recordOk_resolveAccount (Or.inl (Table.has_of_lookup hlookup))
  have heq := resolveAccount_eq info w.accounts (t := w.accounts) (by
    split
    · rfl
    · rename_i r' hr'
      exact (settle_of_has (hnone r' hr') _).symm)
  rw [hover]
  rw [heq] at hrecord ⊢
  exact { h with
    describes := by
      intro c'
      by_cases hc : c' = info.chainName
      · subst hc
        have hdesc := h.describes info.chainName
        unfold Describes at hdesc ⊢
        dsimp only
        split
        case h_1 hl =>
          rw [hl] at hdesc
          cases hdesc.1.symm.trans hlookup
        case h_2 r' hl =>
          rw [hl] at hdesc
          dsimp only at hdesc
          split
          case h_1 ho => rwa [ho] at hdesc
          case h_2 ho => exact hrecord
          case h_3 ho =>
            rw [ho] at hdesc
            exact absurd hok hdesc.2
      · exact (h.describes c').congr rfl (fun _ _ => rfl)
          ((Table.lookup_insert _ _ _ _).trans (if_neg hc)) rfl }

/-- The records once the chain's account is released. -/
def releasedRecords (c : SupportedChain) (reason : String) (s : AccountsState δ) :
    Table SupportedChain (AccountInfo δ) :=
  match s.accounts.lookup c with
  | none => s.accounts
  | some info => s.accounts.insert c { info with err := some reason }

theorem releaseAccount_of_pending {s : AccountsState δ} (reason : String)
    (hpending : s.accountsPending.lookup c = some r) :
    releaseAccount c reason s = { settle r (.rejected reason) s with
      accounts := releasedRecords c reason s
      accountsPending := s.accountsPending.erase c } := by
  unfold releaseAccount releasedRecords settle
  cases s.accounts.lookup c with
  | none =>
    dsimp only
    rw [hpending]
    dsimp only
    split <;> rfl
  | some info =>
    dsimp only
    rw [hpending]
    dsimp only
    split <;> rfl

theorem releaseAccount_of_not_pending {s : AccountsState δ} (reason : String)
    (hpending : s.accountsPending.lookup c = none) :
    releaseAccount c reason s = { s with accounts := releasedRecords c reason s } := by
  unfold releaseAccount releasedRecords
  cases s.accounts.lookup c with
  | none =>
    dsimp only
    rw [hpending]
  | some info =>
    dsimp only
    rw [hpending]

theorem releasedRecords_ne {c' : SupportedChain} (hc : c' ≠ c) (reason : String)
    (s : AccountsState δ) : (releasedRecords c reason s).lookup c' = s.accounts.lookup c' := by
  unfold releasedRecords
  split
  · rfl
  · exact (Table.lookup_insert _ _ _ _).trans (if_neg hc)

theorem not_recordOk_released {s t : AccountsState δ} {reason : String}
    (hreason : s.accounts.has c = true → reason ≠ "")
    (ht : t.accounts = releasedRecords c reason s) : ¬ RecordOk t c := by
  unfold releasedRecords at ht
  cases hlookup : s.accounts.lookup c with
  | none =>
    rw [hlookup] at ht
    rintro ⟨info, hinfo, -⟩
    rw [ht, hlookup] at hinfo
    cases hinfo
  | some info =>
    rw [hlookup] at ht
    have hrecord : t.accounts.lookup c = some { info with err := some reason } := by
      rw [ht]
      exact (Table.lookup_insert _ _ _ _).trans (if_pos rfl)
    rw [recordOk_of_lookup hrecord]
    have hne := hreason (Table.has_of_lookup hlookup)
    simp [AccountInfo.isOk, hne]

theorem Kept.release (h : Kept w) (hcurrent : Current w.accounts r c) {reason : String}
    (hreason : w.accounts.accounts.has c = true → reason ≠ "") :
    Kept { w.ended r (.rejected reason) with accounts := releaseAccount c reason w.accounts } := by
  obtain ⟨hpending, hopen⟩ := hcurrent
  have heq := releaseAccount_of_pending reason hpending
  obtain ⟨-, -, hnext⟩ := settle_frame w.accounts r (.rejected reason)
  have hgone : (releaseAccount c reason w.accounts).accountsPending.lookup c = none := by
    rw [heq]
    exact (Table.lookup_erase _ _ _).trans (if_pos rfl)
  apply h.end_ hpending hopen
  case hsettled => rw [heq]
  case hnext =>
    rw [heq]
    exact hnext
  case hothers =>
    intro c' hc
    rw [heq]
    exact ⟨releasedRecords_ne hc reason _, (Table.lookup_erase _ _ _).trans (if_neg hc)⟩
  case hstays =>
    intro r' hr'
    rw [hgone] at hr'
    cases hr'
  case hrecord =>
    dsimp only
    exact ⟨hgone, not_recordOk_released hreason (by rw [heq])⟩

theorem Kept.releaseAgain (h : Kept w) (hheld : w.heldChain r = some c)
    (hnone : w.accounts.accountsPending.has c = false) (hfailed : ¬ RecordOk w.accounts c)
    {reason : String} (hreason : w.accounts.accounts.has c = true → reason ≠ "") :
    Kept { w.ended r (.rejected reason) with accounts := releaseAccount c reason w.accounts } := by
  have hpending : w.accounts.accountsPending.lookup c = none := by simpa [Table.has] using hnone
  have hidle : NoneWorking w.accounts c := by
    intro r' hr'
    rw [hpending] at hr'
    cases hr'
  have hover : w.ended r (.rejected reason) = w := if_pos (h.over hheld hidle)
  rw [hover, releaseAccount_of_not_pending reason hpending]
  exact { h with
    describes := by
      intro c'
      by_cases hc : c' = c
      · subst hc
        have hdesc := h.describes c'
        unfold Describes at hdesc ⊢
        dsimp only
        split
        case h_1 hl =>
          rw [hl] at hdesc
          rw [releasedRecords, hdesc.1]
          exact hdesc
        case h_2 r' hl =>
          rw [hl] at hdesc
          dsimp only at hdesc
          split
          case h_1 ho => rwa [ho] at hdesc
          case h_2 ho =>
            rw [ho] at hdesc
            exact absurd hdesc hfailed
          case h_3 ho => exact ⟨hpending, not_recordOk_released hreason rfl⟩
      · exact (h.describes c').congr rfl (fun _ _ => rfl) (releasedRecords_ne hc reason _) rfl }

theorem Kept.watched (h : Kept w) (hnone : NoneWorking w.accounts c)
    (watchers : Table VowId SupportedChain) :
    Kept { w with accounts := accountWatcher c { w.accounts with watchers := watchers } } := by
  have hkept : ∀ c' ≠ c, (w.accounts.accountsPending.erase c).lookup c' =
      w.accounts.accountsPending.lookup c' :=
    fun c' hc => (Table.lookup_erase _ _ _).trans (if_neg hc)
  have hgone : (w.accounts.accountsPending.erase c).lookup c = none :=
    (Table.lookup_erase _ _ _).trans (if_pos rfl)
  exact { h with
    undisturbed := by
      intro r res hres hr
      obtain ⟨hpending, hheld⟩ := h.undisturbed r res hres hr
      have hc : res.chainName ≠ c := by
        rintro rfl
        have hsettled := (h.settled_has_iff r).mp (hnone r hpending)
        rw [hr] at hsettled
        cases hsettled
      exact ⟨(hkept _ hc).trans hpending, hheld⟩
    describes := by
      intro c'
      by_cases hc : c' = c
      · subst hc
        have hdesc := h.describes c'
        unfold Describes at hdesc ⊢
        dsimp only [accountWatcher]
        split
        case h_1 hl =>
          rw [hl] at hdesc
          exact ⟨hdesc.1, hgone⟩
        case h_2 r hl =>
          rw [hl] at hdesc
          dsimp only at hdesc
          split
          case h_1 ho =>
            rw [ho] at hdesc
            have hsettled := (h.settled_has_iff r).mp (hnone r hdesc)
            rw [ho] at hsettled
            cases hsettled
          case h_2 ho => rwa [ho] at hdesc
          case h_3 ho =>
            rw [ho] at hdesc
            exact ⟨hgone, hdesc.2⟩
      · exact (h.describes c').congr rfl (fun _ _ => rfl) rfl (hkept c' hc)
    pendingLatest := by
      intro c' r hr
      by_cases hc : c' = c
      · rw [hc] at hr
        exact nomatch hgone.symm.trans hr
      · exact h.pendingLatest c' r ((hkept c' hc).symm.trans hr) }

theorem released_eq (hpending : w.accounts.accountsPending.lookup c = some r) :
    w.released c = { w.ended r (.rejected startingNewFlow) with
      accounts := releaseAccount c startingNewFlow w.accounts } := by
  have haccounts : (w.ended r (.rejected startingNewFlow)).accounts = w.accounts := by
    unfold World.ended
    split <;> rfl
  unfold World.released
  rw [hpending]
  dsimp only
  rw [haccounts]

theorem Kept.current_released (h : Kept w) (hcurrent : Current w.accounts r c)
    {c' : SupportedChain} (hc : c' ≠ c) {r' : VowId} (hcurrent' : Current w.accounts r' c') :
    Current (w.released c).accounts r' c' := by
  obtain ⟨hpending, hopen⟩ := hcurrent
  obtain ⟨hpending', hopen'⟩ := hcurrent'
  have hne : r' ≠ r := h.ne_of_pending hpending hc (h.pendingLatest c' r' hpending')
  rw [World.released_accounts, releaseAccount_of_pending _ hpending]
  constructor
  · exact ((Table.lookup_erase _ _ _).trans (if_neg hc)).trans hpending'
  · dsimp only
    rw [Table.has, settled_settle _ _ hopen, if_neg hne]
    exact hopen'

theorem Kept.releasedAll {chains : List SupportedChain} (hnodup : chains.Nodup) (h : Kept w)
    (hcurrent : ∀ c ∈ chains, ∃ r, Current w.accounts r c) :
    Kept (chains.foldl World.released w) := by
  induction chains generalizing w with
  | nil => exact h
  | cons c chains ih =>
    obtain ⟨hnew, hnodup⟩ := List.nodup_cons.mp hnodup
    obtain ⟨r, hr⟩ := hcurrent c List.mem_cons_self
    have hnext : Kept (w.released c) := by
      rw [released_eq hr.1]
      exact h.release hr fun _ => by decide
    apply ih hnodup hnext
    intro c' hmem
    obtain ⟨r', hr'⟩ := hcurrent c' (List.mem_cons_of_mem c hmem)
    have hc : c' ≠ c := by
      rintro rfl
      exact hnew hmem
    exact ⟨r', h.current_released hr hc hr'⟩

theorem exists_current {s : AccountsState δ} (h : ¬ NoneWorking s c) : ∃ r, Current s r c := by
  by_contra hnone
  apply h
  intro r hr
  by_contra hopen
  exact hnone ⟨r, hr, by simpa using hopen⟩

theorem Kept.startFlow (h : Kept w)
    (hwork : ∀ c ∈ evmPendingAccounts w.accounts, ¬ NoneWorking w.accounts c) :
    Kept w.startFlow := by
  have hnodup : (evmPendingAccounts w.accounts).Nodup :=
    List.Nodup.filter _ (AList.keys_nodup w.accounts.accountsPending)
  exact Kept.releasedAll hnodup h fun c hc => exists_current (hwork c hc)

theorem Kept.step {a : AccountAction δ} (h : Kept w) (hok : Cooperative w a)
    (hstep : w.step a = some w') : Kept w' := by
  cases a with
  | reserveAccountState c =>
    cases hstep
    exact h.reserved c rfl fun _ _ _ => rfl
  | reserveAccount c =>
    cases hstep
    apply h.reserved c rfl
    intro hpending hrecord hfailed
    rcases hok with hhas | hnone | hrecordOk
    · simp [Table.has, hpending] at hhas
    · rw [hrecord] at hnone
      cases hnone
    · exact absurd hrecordOk hfailed
  | initAccountInfo r details err =>
    obtain ⟨c, hheld, hstep⟩ := Option.bind_eq_some_iff.mp hstep
    unfold initAccountInfo at hstep
    dsimp only at hstep
    split at hstep
    case h_1 =>
      cases hstep
      exact h
    case h_2 s hs =>
      cases hstep
      split at hs
      case isTrue => cases hs
      case isFalse hnew =>
        cases hs
        obtain ⟨hpending, hopen⟩ := (hok c hheld).resolve_right hnew
        exact h.init { chainName := c, details, err } hpending hopen
  | resolveAccount r details err =>
    obtain ⟨c, hheld, hstep⟩ := Option.bind_eq_some_iff.mp hstep
    cases hstep
    rcases hok c hheld with ⟨hcurrent, herr⟩ | ⟨hnone, hrecord⟩
    · exact h.resolve hcurrent herr
    · exact h.resolveAgain hheld hnone hrecord
  | releaseAccount r reason =>
    obtain ⟨c, hheld, hstep⟩ := Option.bind_eq_some_iff.mp hstep
    cases hstep
    obtain ⟨hwhen, hreason⟩ := hok c hheld
    rcases hwhen with hcurrent | ⟨hnone, hfailed⟩
    · exact h.release hcurrent hreason
    · exact h.releaseAgain hheld hnone hfailed hreason
  | startFlow =>
    cases hstep
    exact h.startFlow hok
  | accountWatcher r =>
    obtain ⟨c, hwatch, hstep⟩ := Option.bind_eq_some_iff.mp hstep
    split at hstep
    case isTrue =>
      cases hstep
      exact h.watched (hok c hwatch) _
    case isFalse => cases hstep

end Invariant

section Runs

/-- Runs of cooperating callers keep every reservation with its holder. -/
theorem reservations_exclusive {w : World δ} (h : (accountsSystem δ).Reachable Cooperative w) :
    ReservationsExclusive w :=
  (h.invariant (I := Kept) (fun _ hw => hw ▸ kept_empty)
    fun _ _ _ hk hok hstep => hk.step hok hstep).exclusive

/-- A holder is overtaken by a new flow, ends late, and another caller makes the account. -/
def overtaken : List (AccountAction String) :=
  [.reserveAccountState .Arbitrum, .initAccountInfo 0 "predicted" none,
    .reserveAccountState .Arbitrum, .startFlow, .releaseAccount 0 "timeout", .accountWatcher 0,
    .reserveAccountState .Arbitrum, .resolveAccount 1 "made" none, .accountWatcher 1,
    .reserveAccountState .Arbitrum]

theorem overtaken_runs :
    ((accountsSystem String).runWhile Cooperative {} overtaken).isSome := by
  decide +kernel

theorem reservations_exclusive_overtaken :
    ReservationsExclusive (Option.get _ overtaken_runs) :=
  reservations_exclusive (.of_runWhile (.init rfl) (Option.some_get overtaken_runs).symm)

/-- The watcher of a revoked reservation drops the entry of the next one. -/
def staleWatcher : List (AccountAction String) :=
  [.reserveAccountState .Arbitrum, .initAccountInfo 0 "predicted" none, .startFlow,
    .reserveAccountState .Arbitrum, .accountWatcher 0, .reserveAccountState .Arbitrum]

theorem staleWatcher_runs :
    ((accountsSystem String).runWhile TransitionSystem.anyStep {} staleWatcher).isSome := by
  decide +kernel

theorem reserved_twice : ¬ ∀ w, (accountsSystem String).Reachable TransitionSystem.anyStep w →
    ReservationsExclusive w := by
  intro h
  have hexclusive := h _ (.of_runWhile (.init rfl) (Option.some_get staleWatcher_runs).symm)
  have hsecond : Holding (Option.get _ staleWatcher_runs) 1 .Arbitrum :=
    ⟨by decide +kernel, by decide +kernel⟩
  have hthird : Holding (Option.get _ staleWatcher_runs) 2 .Arbitrum :=
    ⟨by decide +kernel, by decide +kernel⟩
  exact absurd (hexclusive.oneHolder 1 2 .Arbitrum hsecond hthird) (by decide)

end Runs

end AgoricSdk.Portfolio
