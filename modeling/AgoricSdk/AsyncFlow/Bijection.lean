import AgoricSdk.Lib.Program
import AgoricSdk.Lib.Table
import AgoricSdk.Lib.Transition

/-!
The bijection between the guests and the hosts of a flow: two stores that an entry
writes one after the other. A guest that its wrapper is unwrapped to is what the host
stands for; the wrapper itself is one more key, for the same host.
-/

namespace AgoricSdk.AsyncFlow

open StateProgram

variable {V : Type} [DecidableEq V]

/-- How values are told apart as keys. -/
structure KeyModel (V : Type) where
  isPassable : V → Bool
  /-- The capability that a promise or a vow is known by. -/
  toPassableCap : V → V

def KeyModel.toKey (model : KeyModel V) (k : V) : V :=
  if model.isPassable k then model.toPassableCap k else k

inductive StoreName where
  | guestToHost
  | hostToGuest
  deriving DecidableEq

inductive BijectionFault (V : Type) where
  | unwrap (reason : String)
  | keyAlreadyBound (store : StoreName) (key bound value : V)
  | keyNotFound (store : StoreName) (key : V)
  | unexpectedHost (guest host bound : V)
  | unexpectedGuest (host guest bound : V)
  | unexpectedEntry (host bound : V)
  | notEntered (guest host : V)
  | hiddenGuestWrapperAlreadyBound (guest : V)
  deriving DecidableEq

/-- The stores, each from keys to values as they are. -/
structure VowishStores (V : Type) where
  guestToHost : Table V V := ∅
  hostToGuest : Table V V := ∅

def VowishStores.store (s : VowishStores V) : StoreName → Table V V
  | .guestToHost => s.guestToHost
  | .hostToGuest => s.hostToGuest

abbrev BijectionProgram (V α : Type) := EStateM (BijectionFault V) (VowishStores V) α

def VowishStores.put (model : KeyModel V) (s : VowishStores V) (name : StoreName) (k v : V) :
    VowishStores V :=
  match name with
  | .guestToHost => { s with guestToHost := s.guestToHost.insert (model.toKey k) v }
  | .hostToGuest => { s with hostToGuest := s.hostToGuest.insert (model.toKey k) v }

section Stores

variable (model : KeyModel V) (name : StoreName)

def storeHas (k : V) : BijectionProgram V Bool := do
  return ((← get).store name).has (model.toKey k)

def storeGet (k : V) : BijectionProgram V V := do
  match ((← get).store name).lookup (model.toKey k) with
  | some v => return v
  | none => throw (.keyNotFound name k)

def storeInit (k v : V) : BijectionProgram V Unit := do
  match ((← get).store name).lookup (model.toKey k) with
  | some bound => throw (.keyAlreadyBound name k bound v)
  | none => modify fun s => s.put model name k v

end Stores

namespace Bijection

variable (model : KeyModel V)

def reset : BijectionProgram V Unit :=
  set ({} : VowishStores V)

def hasGuest (g : V) : BijectionProgram V Bool := storeHas model .guestToHost g

def hasHost (h : V) : BijectionProgram V Bool := storeHas model .hostToGuest h

def guestToHost (g : V) : BijectionProgram V V := storeGet model .guestToHost g

def hostToGuest (h : V) : BijectionProgram V V := storeGet model .hostToGuest h

/-- Where only one direction is there, or the two disagree, it throws. -/
def has (g h : V) : BijectionProgram V Bool := do
  match (← get).guestToHost.lookup (model.toKey g) with
  | some host =>
    if model.toPassableCap host ≠ model.toPassableCap h then throw (.unexpectedHost g h host)
    let guest ← storeGet model .hostToGuest h
    if guest ≠ g then throw (.unexpectedGuest h g guest)
    return true
  | none =>
    match (← get).hostToGuest.lookup (model.toKey h) with
    | some bound => throw (.unexpectedEntry h bound)
    | none => return false

/-- The wrapper of an unwrapped guest is mapped to the host, the host not to it. -/
def enterWrapper (g h gUnwrapped : V) : BijectionProgram V Unit :=
  if g = gUnwrapped then pure ()
  else do
    if ← storeHas model .guestToHost g then throw (.hiddenGuestWrapperAlreadyBound g)
    storeInit model .guestToHost g h

/-- What `unwrap` returned for the host and the wrapper, or threw, is given. -/
def unwrapInit (unwrapped : Except String V) (g h : V) : BijectionProgram V V := do
  match unwrapped with
  | .error reason => throw (.unwrap reason)
  | .ok gUnwrapped =>
    match (← get).hostToGuest.lookup (model.toKey h) with
    | some bound => throw (.keyAlreadyBound .hostToGuest h bound gUnwrapped)
    | none =>
      storeInit model .guestToHost gUnwrapped h
      storeInit model .hostToGuest h gUnwrapped
      if !(← has model gUnwrapped h) then throw (.notEntered g h)
      enterWrapper model g h gUnwrapped
      return gUnwrapped

end Bijection

/-! ## What a call does -/

section Calls

variable (model : KeyModel V) {s t : VowishStores V} {g h gUnwrapped : V}
  {unwrapped : Except String V}

/-- The pair is entered, both ways. -/
def VowishStores.enter (s : VowishStores V) (gUnwrapped h : V) : VowishStores V :=
  (s.put model .guestToHost gUnwrapped h).put model .hostToGuest h gUnwrapped

/-- Neither the guest nor the host is a key. -/
structure VowishStores.Fresh (s : VowishStores V) (gUnwrapped h : V) : Prop where
  guest : s.guestToHost.lookup (model.toKey gUnwrapped) = none
  host : s.hostToGuest.lookup (model.toKey h) = none

/-- Of a pair that would be entered, the wrapper is a key by the time it is its turn. -/
def HiddenTaken (s : VowishStores V) (unwrapped : Except String V) (g h : V) : Prop :=
  ∃ gUnwrapped, unwrapped = .ok gUnwrapped ∧ s.Fresh model gUnwrapped h ∧ g ≠ gUnwrapped ∧
    (model.toKey g = model.toKey gUnwrapped ∨ s.guestToHost.has (model.toKey g) = true)

variable {model} {α : Type} {Q : α → VowishStores V → Prop}
  {E : BijectionFault V → VowishStores V → Prop}

theorem wp_storeInit {Q : Unit → VowishStores V → Prop} {name : StoreName} {k v : V}
    (hfresh : (s.store name).lookup (model.toKey k) = none) (hQ : Q () (s.put model name k v)) :
    Wp (storeInit model name k v) Q E s := by
  unfold storeInit
  rw [wp_bind, wp_get, hfresh]
  exact hQ

theorem lookup_enter_guest (k : V) :
    (s.enter model gUnwrapped h).guestToHost.lookup k =
      if k = model.toKey gUnwrapped then some h else s.guestToHost.lookup k :=
  Table.lookup_insert ..

theorem lookup_enter_host (k : V) :
    (s.enter model gUnwrapped h).hostToGuest.lookup k =
      if k = model.toKey h then some gUnwrapped else s.hostToGuest.lookup k :=
  Table.lookup_insert ..

theorem wp_has_enter {Q : Bool → VowishStores V → Prop} (hQ : Q true (s.enter model gUnwrapped h)) :
    Wp (Bijection.has model gUnwrapped h) Q E (s.enter model gUnwrapped h) := by
  unfold Bijection.has storeGet
  rw [wp_bind, wp_get, lookup_enter_guest, if_pos rfl]
  simp [VowishStores.store, lookup_enter_host, hQ]

theorem wp_enterWrapper {Q : Unit → VowishStores V → Prop} (hsame : g = gUnwrapped → Q () s)
    (hfresh : g ≠ gUnwrapped → s.guestToHost.has (model.toKey g) = false →
      Q () (s.put model .guestToHost g h))
    (htaken : g ≠ gUnwrapped → s.guestToHost.has (model.toKey g) = true →
      E (.hiddenGuestWrapperAlreadyBound g) s) :
    Wp (Bijection.enterWrapper model g h gUnwrapped) Q E s := by
  unfold Bijection.enterWrapper storeHas
  apply wp_ite
  · exact hsame
  · intro hne
    rw [wp_bind, wp_bind, wp_get]
    cases hhas : s.guestToHost.has (model.toKey g) with
    | true =>
      simp only [wp_pure, VowishStores.store, hhas, if_true]
      exact htaken hne hhas
    | false =>
      simp only [wp_pure, VowishStores.store, hhas, Bool.false_eq_true, if_false]
      have hnone : (s.store .guestToHost).lookup (model.toKey g) = none :=
        Option.not_isSome_iff_eq_none.mp (Bool.eq_false_iff.mp hhas)
      exact wp_storeInit hnone (hfresh hne hhas)

theorem unwrapInit_spec (model : KeyModel V) (s : VowishStores V) (unwrapped : Except String V)
    (g h : V) :
    Wp (Bijection.unwrapInit model unwrapped g h)
      (fun gUnwrapped t => unwrapped = .ok gUnwrapped ∧ s.Fresh model gUnwrapped h ∧
        ¬HiddenTaken model s unwrapped g h ∧
        t = if g = gUnwrapped then s.enter model gUnwrapped h
          else (s.enter model gUnwrapped h).put model .guestToHost g h)
      (fun _ t => (¬HiddenTaken model s unwrapped g h ∧ t = s) ∨
        ∃ gUnwrapped, HiddenTaken model s unwrapped g h ∧ s.Fresh model gUnwrapped h ∧
          t = s.enter model gUnwrapped h) s := by
  unfold Bijection.unwrapInit
  cases unwrapped with
  | error reason =>
    refine .inl ⟨?_, rfl⟩
    rintro ⟨_, hunwrapped, -⟩
    cases hunwrapped
  | ok gUnwrapped =>
    rw [wp_bind, wp_get]
    cases hhost : s.hostToGuest.lookup (model.toKey h) with
    | some bound =>
      refine .inl ⟨?_, rfl⟩
      rintro ⟨_, -, hfresh, -⟩
      rw [hfresh.host] at hhost
      cases hhost
    | none =>
      dsimp only
      rw [wp_bind]
      cases hguest : (s.store .guestToHost).lookup (model.toKey gUnwrapped) with
      | some bound =>
        unfold storeInit
        rw [wp_bind, wp_get, hguest]
        refine .inl ⟨?_, rfl⟩
        rintro ⟨_, hunwrapped, hfresh, -⟩
        cases hunwrapped
        rw [VowishStores.store, hfresh.guest] at hguest
        cases hguest
      | none =>
        have hfresh : s.Fresh model gUnwrapped h := ⟨hguest, hhost⟩
        have htaken : HiddenTaken model s (.ok gUnwrapped) g h ↔
            g ≠ gUnwrapped ∧ (s.enter model gUnwrapped h).guestToHost.has (model.toKey g) = true := by
          rw [Table.has, lookup_enter_guest]
          constructor
          · rintro ⟨_, hunwrapped, -, hne, hkey⟩
            cases hunwrapped
            apply And.intro hne
            split
            · rfl
            next hother => exact hkey.resolve_left hother
          · rintro ⟨hne, hkey⟩
            refine ⟨gUnwrapped, rfl, hfresh, hne, ?_⟩
            split at hkey
            next hsame => exact .inl hsame
            · exact .inr hkey
        apply wp_storeInit hguest
        rw [wp_bind]
        have hhost' : ((s.put model .guestToHost gUnwrapped h).store .hostToGuest).lookup
            (model.toKey h) = none := hhost
        apply wp_storeInit hhost'
        rw [wp_bind]
        apply wp_has_enter
        rw [if_neg (by decide), wp_bind]
        apply wp_enterWrapper
        · intro heq
          refine ⟨rfl, hfresh, ?_, (if_pos heq).symm⟩
          rw [htaken]
          exact fun h => h.1 heq
        · intro hne hhas
          refine ⟨rfl, hfresh, ?_, (if_neg hne).symm⟩
          rw [htaken, hhas]
          exact fun h => Bool.false_ne_true h.2
        · exact fun hne hhas => .inr ⟨gUnwrapped, htaken.mpr ⟨hne, hhas⟩, hfresh, rfl⟩

end Calls

/-! ## Runs -/

/-- A call that returned. -/
structure Entry (V : Type) where
  wrapper : V
  host : V
  unwrapped : V

/-- The stores, and the calls since the last reset that returned. -/
structure History (V : Type) where
  stores : VowishStores V := {}
  entered : List (Entry V) := []

inductive BijectionCall (V : Type) where
  | reset
  | unwrapInit (unwrapped : Except String V) (g h : V)

def bijection (model : KeyModel V) : TransitionSystem (History V) (BijectionCall V) where
  init s := s = {}
  step s
    | .reset => some { stores := finalState Bijection.reset s.stores }
    | .unwrapInit unwrapped g h =>
      match Bijection.unwrapInit model unwrapped g h s.stores with
      | .ok gUnwrapped stores => some { stores, entered := ⟨g, h, gUnwrapped⟩ :: s.entered }
      | .error _ stores => some { s with stores }

/-- Each store finds its way back through the other. A guest key is the guest that its
host has, or the hidden wrapper that this guest was unwrapped from. -/
structure OneToOne (model : KeyModel V) (s : History V) : Prop where
  inverse : ∀ k g, s.stores.hostToGuest.lookup k = some g →
    ∃ h, s.stores.guestToHost.lookup (model.toKey g) = some h ∧ model.toKey h = k
  guests : ∀ k h, s.stores.guestToHost.lookup k = some h →
    ∃ g, s.stores.hostToGuest.lookup (model.toKey h) = some g ∧
      (model.toKey g = k ∨ ∃ entry ∈ s.entered, entry.host = h ∧ entry.unwrapped = g ∧
        entry.wrapper ≠ g ∧ model.toKey entry.wrapper = k)

/-- What is bound stays bound to the same. -/
structure VowishStores.Grows (s t : VowishStores V) : Prop where
  guests : ∀ k h, s.guestToHost.lookup k = some h → t.guestToHost.lookup k = some h
  hosts : ∀ k g, s.hostToGuest.lookup k = some g → t.hostToGuest.lookup k = some g

section Runs

variable {model : KeyModel V} {s : History V} {t : VowishStores V} {g h gUnwrapped : V}
  {unwrapped : Except String V}

theorem OneToOne.enter (hs : OneToOne model s) (hfresh : s.stores.Fresh model gUnwrapped h)
    (entered : List (Entry V)) (hentered : ∀ entry ∈ s.entered, entry ∈ entered) :
    OneToOne model ⟨s.stores.enter model gUnwrapped h, entered⟩ := by
  constructor
  · intro k g hk
    dsimp only at hk ⊢
    rw [lookup_enter_host] at hk
    split at hk
    next heq =>
      cases hk
      exact ⟨h, by rw [lookup_enter_guest, if_pos rfl], heq.symm⟩
    · obtain ⟨h', hguest, hkey⟩ := hs.inverse k g hk
      refine ⟨h', ?_, hkey⟩
      rw [lookup_enter_guest, if_neg]
      · exact hguest
      · intro heq
        rw [heq, hfresh.guest] at hguest
        cases hguest
  · intro k h' hk
    dsimp only at hk ⊢
    rw [lookup_enter_guest] at hk
    split at hk
    next heq =>
      cases hk
      exact ⟨gUnwrapped, by rw [lookup_enter_host, if_pos rfl], .inl heq.symm⟩
    · obtain ⟨g, hhost, hwhich⟩ := hs.guests k h' hk
      refine ⟨g, ?_, ?_⟩
      · rw [lookup_enter_host, if_neg]
        · exact hhost
        · intro heq
          rw [heq, hfresh.host] at hhost
          cases hhost
      · rcases hwhich with hown | ⟨entry, hentry, hrest⟩
        · exact .inl hown
        · exact .inr ⟨entry, hentered entry hentry, hrest⟩

theorem OneToOne.hidden (hs : OneToOne model s) (hentry : ⟨g, h, gUnwrapped⟩ ∈ s.entered)
    (hne : g ≠ gUnwrapped) (hhost : s.stores.hostToGuest.lookup (model.toKey h) = some gUnwrapped)
    (hfresh : s.stores.guestToHost.lookup (model.toKey g) = none) :
    OneToOne model { s with stores := s.stores.put model .guestToHost g h } := by
  constructor
  · intro k g' hk
    obtain ⟨h', hguest, hkey⟩ := hs.inverse k g' hk
    refine ⟨h', ?_, hkey⟩
    dsimp only [VowishStores.put]
    rw [Table.lookup_insert, if_neg]
    · exact hguest
    · intro heq
      rw [heq, hfresh] at hguest
      cases hguest
  · intro k h' hk
    dsimp only [VowishStores.put] at hk ⊢
    rw [Table.lookup_insert] at hk
    split at hk
    next heq =>
      cases hk
      exact ⟨gUnwrapped, hhost, .inr ⟨_, hentry, rfl, rfl, hne, heq.symm⟩⟩
    · exact hs.guests k h' hk

theorem wrapper_unbound (hfresh : t.Fresh model gUnwrapped h) (hne : g ≠ gUnwrapped)
    (hfree : ¬HiddenTaken model t (.ok gUnwrapped) g h) :
    (t.enter model gUnwrapped h).guestToHost.lookup (model.toKey g) = none := by
  by_contra hbound
  apply hfree
  refine ⟨gUnwrapped, rfl, hfresh, hne, ?_⟩
  rw [lookup_enter_guest] at hbound
  split at hbound
  next hsame => exact .inl hsame
  · exact .inr (Option.isSome_iff_ne_none.mpr hbound)

theorem OneToOne.step {s' : History V} {call : BijectionCall V} (hs : OneToOne model s)
    (h : (bijection model).step s call = some s') : OneToOne model s' := by
  cases call with
  | reset =>
    cases h
    constructor
    · intro k g hk
      cases hk
    · intro k h hk
      cases hk
  | unwrapInit unwrapped g host =>
    have hspec := unwrapInit_spec model s.stores unwrapped g host
    dsimp only [bijection] at h
    cases hrun : Bijection.unwrapInit model unwrapped g host s.stores with
    | error fault t =>
      rw [hrun] at h
      cases h
      rcases wp_of_error hspec hrun with ⟨-, rfl⟩ | ⟨gUnwrapped, -, hfresh, rfl⟩
      · exact hs
      · exact hs.enter hfresh s.entered fun _ hentry => hentry
    | ok gUnwrapped t =>
      rw [hrun] at h
      cases h
      obtain ⟨rfl, hfresh, hfree, rfl⟩ := wp_of_ok hspec hrun
      have henter := hs.enter hfresh (⟨g, host, gUnwrapped⟩ :: s.entered) fun entry hentry =>
        List.mem_cons_of_mem _ hentry
      split
      · exact henter
      next hne =>
        apply henter.hidden List.mem_cons_self hne
        · rw [lookup_enter_host, if_pos rfl]
        · exact wrapper_unbound hfresh hne hfree

theorem oneToOne_of_reachable
    (h : (bijection model).Reachable TransitionSystem.anyStep s) : OneToOne model s := by
  apply h.invariant
  · rintro s rfl
    constructor
    · intro k g hk
      cases hk
    · intro k h hk
      cases hk
  · exact fun _ _ _ hs _ hstep => hs.step hstep

theorem VowishStores.Grows.enter (hfresh : t.Fresh model gUnwrapped h) :
    t.Grows (t.enter model gUnwrapped h) := by
  constructor
  · intro k h' hk
    rw [lookup_enter_guest, if_neg]
    · exact hk
    · intro heq
      rw [heq, hfresh.guest] at hk
      cases hk
  · intro k g' hk
    rw [lookup_enter_host, if_neg]
    · exact hk
    · intro heq
      rw [heq, hfresh.host] at hk
      cases hk

theorem VowishStores.Grows.hidden (hfresh : t.guestToHost.lookup (model.toKey g) = none) :
    t.Grows (t.put model .guestToHost g h) := by
  constructor
  · intro k h' hk
    dsimp only [VowishStores.put]
    rw [Table.lookup_insert, if_neg]
    · exact hk
    · intro heq
      rw [heq, hfresh] at hk
      cases hk
  · exact fun _ _ hk => hk

theorem unwrapInit_grows (model : KeyModel V) (t : VowishStores V) (unwrapped : Except String V)
    (g h : V) : t.Grows (finalState (Bijection.unwrapInit model unwrapped g h) t) := by
  have hspec := unwrapInit_spec model t unwrapped g h
  apply finalState_of_wp
  apply wp_mono hspec
  · rintro gUnwrapped u ⟨rfl, hfresh, hfree, rfl⟩
    have henter : t.Grows (t.enter model gUnwrapped h) := .enter hfresh
    split
    · exact henter
    next hne =>
      have hhidden := VowishStores.Grows.hidden (h := h) (wrapper_unbound hfresh hne hfree)
      exact ⟨fun k h' hk => hhidden.guests k h' (henter.guests k h' hk),
        fun k g' hk => hhidden.hosts k g' (henter.hosts k g' hk)⟩
  · rintro fault u (⟨-, rfl⟩ | ⟨gUnwrapped, -, hfresh, rfl⟩)
    · exact ⟨fun _ _ hk => hk, fun _ _ hk => hk⟩
    · exact .enter hfresh

/-- A call that throws leaves the stores as they were, but for one whose wrapper turns
out to be taken: by then its pair is entered. -/
theorem unwrapInit_atomic_iff (model : KeyModel V) (t : VowishStores V)
    (unwrapped : Except String V) (g h : V) :
    (∀ fault u, Bijection.unwrapInit model unwrapped g h t = .error fault u → u = t) ↔
      ¬HiddenTaken model t unwrapped g h := by
  have hspec := unwrapInit_spec model t unwrapped g h
  constructor
  · intro hatomic htaken
    cases hrun : Bijection.unwrapInit model unwrapped g h t with
    | ok gUnwrapped u =>
      obtain ⟨-, -, hfree, -⟩ := wp_of_ok hspec hrun
      exact hfree htaken
    | error fault u =>
      rcases wp_of_error hspec hrun with ⟨hfree, -⟩ | ⟨gUnwrapped, -, hfresh, hu⟩
      · exact hfree htaken
      · have hhost : u.hostToGuest.lookup (model.toKey h) = some gUnwrapped := by
          rw [hu, lookup_enter_host, if_pos rfl]
        rw [hatomic fault u hrun, hfresh.host] at hhost
        cases hhost
  · intro hfree fault u hrun
    rcases wp_of_error hspec hrun with ⟨-, hu⟩ | ⟨_, htaken, -⟩
    · exact hu
    · exact absurd htaken hfree

/-- Between resets the hosts and their guests are one to one, and what is bound stays.
A call that throws may have entered its pair only where its wrapper was taken. -/
theorem bijection_one_to_one (hs : (bijection model).Reachable TransitionSystem.anyStep s) :
    OneToOne model s ∧
      (∀ k k' g g', s.stores.hostToGuest.lookup k = some g →
        s.stores.hostToGuest.lookup k' = some g' → model.toKey g = model.toKey g' → k = k') ∧
      ∀ unwrapped g h,
        s.stores.Grows (finalState (Bijection.unwrapInit model unwrapped g h) s.stores) ∧
          ((∀ fault t, Bijection.unwrapInit model unwrapped g h s.stores = .error fault t →
            t = s.stores) ↔ ¬HiddenTaken model s.stores unwrapped g h) := by
  have honeToOne := oneToOne_of_reachable hs
  refine ⟨honeToOne, ?_, ?_⟩
  · intro k k' g g' hk hk' hkey
    obtain ⟨h, hguest, rfl⟩ := honeToOne.inverse k g hk
    obtain ⟨h', hguest', rfl⟩ := honeToOne.inverse k' g' hk'
    rw [hkey, hguest'] at hguest
    cases hguest
    rfl
  · exact fun unwrapped g h =>
      ⟨unwrapInit_grows model s.stores unwrapped g h,
        unwrapInit_atomic_iff model s.stores unwrapped g h⟩

end Runs

section Example

/-- Values that are their own keys. -/
def plainKeys : KeyModel String where
  isPassable _ := true
  toPassableCap k := k

/-- A wrapper, its host and the record that it wraps. -/
def oneEntry : History String where
  stores := {
    guestToHost := Table.insert (Table.insert ∅ "record" "host") "wrapper" "host"
    hostToGuest := Table.insert ∅ "host" "record" }
  entered := [⟨"wrapper", "host", "record"⟩]

theorem reachable_oneEntry :
    (bijection plainKeys).Reachable TransitionSystem.anyStep oneEntry :=
  .step (.init rfl) trivial (a := .unwrapInit (.ok "record") "wrapper" "host") rfl

/-- The wrapper a second time, for another host and unwrapped to another record: the call
throws that it is bound, and the host has the record. -/
theorem unwrapInit_enters_and_throws :
    (bijection plainKeys).Reachable TransitionSystem.anyStep oneEntry ∧
      oneEntry.stores.hostToGuest.lookup "host2" = none ∧
      ∃ t, Bijection.unwrapInit plainKeys (.ok "record2") "wrapper" "host2" oneEntry.stores =
          .error (.hiddenGuestWrapperAlreadyBound "wrapper") t ∧
        t.hostToGuest.lookup "host2" = some "record2" :=
  ⟨reachable_oneEntry, rfl, _, rfl, rfl⟩

theorem bijection_one_to_one_after_entry :
    OneToOne plainKeys oneEntry ∧
      oneEntry.stores.Grows
        (finalState (Bijection.unwrapInit plainKeys (.ok "record2") "wrapper2" "host2")
          oneEntry.stores) :=
  ⟨(bijection_one_to_one reachable_oneEntry).1,
    ((bijection_one_to_one reachable_oneEntry).2.2 _ _ _).1⟩

end Example

end AgoricSdk.AsyncFlow
