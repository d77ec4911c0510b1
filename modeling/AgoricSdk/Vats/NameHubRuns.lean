import AgoricSdk.Vats.NameHub

/-!
What a name hub promises over a whole run, and the condition under which it keeps it: that no key
is written while a placeholder of it is resolved and not yet moved, and that no call of
`provideChild` goes on for a key that has got an admin in the meantime.
-/

namespace AgoricSdk.NameHub

open TransitionSystem

variable {κ ν : Type} [DecidableEq κ]

section Promises

/-- What a facet gets of a value and its admin. -/
def Facet.pick {α : Type} (newValue adminValue : α) : Facet → α
  | .admin => adminValue
  | .value => newValue

/-- A client has written the key. -/
def Event.isWrite : Event ν → Bool
  | .given .. | .deleted => true
  | .reserved | .provided _ => false

def Event.isReservation : Event ν → Bool
  | .reserved => true
  | _ => false

/-- What the event gives a placeholder. -/
def Event.settles : Event ν → Facet → PromiseState ν
  | .reserved, _ => .pending
  | .given newValue adminValue, facet => .fulfilled (facet.pick newValue adminValue)
  | .provided child, facet => .fulfilled (facet.pick (.childHub child) (.childAdmin child))
  | .deleted, _ => .rejected

def PromiseState.orElse (state other : PromiseState ν) : PromiseState ν :=
  match state with
  | .pending => other
  | state => state

/-- A placeholder takes the first value it is given, if it is not rejected first. -/
def settledBy (facet : Facet) (events : List (Event ν)) : PromiseState ν :=
  events.foldl (fun state event => state.orElse (event.settles facet)) .pending

def eventsOf (log : List (κ × Event ν)) (key : κ) : List (Event ν) :=
  (log.filter fun entry => entry.1 = key).map (·.2)

/-- A map with placeholders. -/
structure ActsAsMap (s : Hub κ ν) : Prop where
  /-- A value stays until the key is written again. -/
  updated : ∀ key newValue adminValue,
    ((eventsOf s.log key).filter Event.isWrite).getLast? = some (.given newValue adminValue) →
    s.lookup .value key = .fulfilled newValue ∧ s.lookup .admin key = .fulfilled adminValue
  /-- A key that is deleted has no value until it is given one. -/
  deleted : ∀ key,
    ((eventsOf s.log key).filter fun event => !event.isReservation).getLast? = some .deleted →
    s.keyToValue.has key = false ∧ s.keyToAdmin.has key = false
  /-- A key that is deleted last is absent. -/
  absent : ∀ key, (eventsOf s.log key).getLast? = some .deleted →
    s.has key = false ∧ s.lookup .value key = .rejected ∧ s.lookup .admin key = .rejected
  /-- A lookup of a placeholder is answered by what happens first to the key. -/
  awaited : ∀ l ∈ s.lookups, s.kits[l.kit]?.map (·.state) =
    some (settledBy l.facet (eventsOf (s.log.drop l.since) l.key))
  disjoint : ∀ key, ¬ (s.keyToValue.has key = true ∧ s.keyToPK.has key = true)
  undisturbed : s.threw = [] ∧ s.refused = []
  /-- Calls of `provideChild` with no write between them return the same. -/
  sameChild : ∀ r ∈ s.provided, ∀ r' ∈ s.provided, r.key = r'.key → r.since ≤ r'.since →
    (∀ event ∈ eventsOf ((s.log.take r'.since).drop r.since) r.key, event.isWrite = false) →
    r.nameHub = r'.nameHub ∧ r.nameAdmin = r'.nameAdmin

/-- A reaction for the key is due: one of its placeholders is resolved and not yet moved. -/
def Moving (s : Hub κ ν) (key : κ) : Prop := key ∈ s.jobs.map (·.key)

instance (s : Hub κ ν) (key : κ) : Decidable (Moving s key) :=
  inferInstanceAs (Decidable (_ ∈ _))

def orderly (s : Hub κ ν) : Action κ ν → Prop
  | .reserve key | .provideChild key =>
    s.keyToAdmin.has key = true → s.keyToValue.has key = true
  | .default key .. => s.keyToValue.has key = true ∨ ¬ Moving s key
  | .set key .. | .update key .. | .delete key => ¬ Moving s key
  | .childReserved i => ∀ call ∈ s.awaiting[i]?,
    s.keyToAdmin.has call.1 = false ∧ ¬ Moving s call.1
  | .lookup .. | .react => True

instance (s : Hub κ ν) (a : Action κ ν) : Decidable (orderly s a) := by
  unfold orderly
  split <;> infer_instance

end Promises

section Names

/-- What a hub is meant to hold for a key. -/
inductive Name (ν : Type) where
  | absent
  | reserved
  | assigned (newValue adminValue : NameValue ν)

def Name.after : Name ν → Event ν → Name ν
  | .absent, .reserved => .reserved
  | name, .reserved => name
  | _, .given newValue adminValue => .assigned newValue adminValue
  | .assigned newValue adminValue, .provided _ => .assigned newValue adminValue
  | _, .provided child => .assigned (.childHub child) (.childAdmin child)
  | _, .deleted => .absent

theorem Name.after_deleted (name : Name ν) : name.after .deleted = .absent := by
  cases name <;> rfl

theorem Name.after_given (name : Name ν) (newValue adminValue : NameValue ν) :
    name.after (.given newValue adminValue) = .assigned newValue adminValue := by
  cases name <;> rfl

def nameOf (log : List (κ × Event ν)) (key : κ) : Name ν :=
  (eventsOf log key).foldl Name.after .absent

theorem eventsOf_append (log others : List (κ × Event ν)) (key : κ) :
    eventsOf (log ++ others) key = eventsOf log key ++ eventsOf others key := by
  unfold eventsOf
  rw [List.filter_append, List.map_append]

theorem eventsOf_self (key : κ) (event : Event ν) : eventsOf [(key, event)] key = [event] := by
  simp [eventsOf]

theorem eventsOf_other {key other : κ} (h : other ≠ key) (event : Event ν) :
    eventsOf [(key, event)] other = [] := by
  simp [eventsOf, Ne.symm h]

theorem nameOf_append_self (log : List (κ × Event ν)) (key : κ) (event : Event ν) :
    nameOf (log ++ [(key, event)]) key = (nameOf log key).after event := by
  unfold nameOf
  rw [eventsOf_append, eventsOf_self, List.foldl_append]
  rfl

theorem nameOf_append_other {key other : κ} (h : other ≠ key) (log : List (κ × Event ν))
    (event : Event ν) : nameOf (log ++ [(key, event)]) other = nameOf log other := by
  unfold nameOf
  rw [eventsOf_append, eventsOf_other h, List.append_nil]

omit [DecidableEq κ] in
theorem orElse_pending (kit : PromiseKit κ ν) (key : κ) [Decidable (kit.key = key)] :
    (if kit.key = key then { kit with state := kit.state.orElse (Event.reserved.settles kit.facet) }
      else kit) = kit := by
  obtain ⟨facet, key', state⟩ := kit
  split
  · cases state <;> rfl
  · rfl

theorem settledBy_append (facet : Facet) (events : List (Event ν)) (event : Event ν) :
    settledBy facet (events ++ [event]) =
      (settledBy facet events).orElse (event.settles facet) := by
  unfold settledBy
  rw [List.foldl_append]
  rfl

theorem foldl_assigned {events : List (Event ν)} (h : ∀ event ∈ events, event.isWrite = false)
    (newValue adminValue : NameValue ν) :
    events.foldl Name.after (.assigned newValue adminValue) = .assigned newValue adminValue := by
  induction events with
  | nil => rfl
  | cons event events ih =>
    obtain ⟨hevent, hevents⟩ := List.forall_mem_cons.mp h
    rw [List.foldl_cons]
    cases event with
    | reserved => exact ih hevents
    | provided child => exact ih hevents
    | given => cases hevent
    | deleted => cases hevent

theorem foldl_of_getLast? {counts : Event ν → Bool} {event : Event ν} {P : Name ν → Prop}
    (hevent : ∀ name, P (Name.after name event))
    (hother : ∀ name other, counts other = false → P name → P (Name.after name other))
    {events : List (Event ν)} (name : Name ν) (h : (events.filter counts).getLast? = some event) :
    P (events.foldl Name.after name) := by
  induction events using List.reverseRecOn with
  | nil => cases h
  | append_singleton events other ih =>
    rw [List.foldl_append]
    rw [List.filter_append] at h
    cases hcounts : counts other with
    | true =>
      rw [List.filter_cons_of_pos hcounts, List.filter_nil, List.getLast?_concat] at h
      cases h
      exact hevent _
    | false =>
      rw [List.filter_cons_of_neg (by rw [hcounts]; exact Bool.false_ne_true), List.filter_nil,
        List.append_nil] at h
      exact hother _ _ hcounts (ih h)

theorem nameOf_given {log : List (κ × Event ν)} {key : κ} {newValue adminValue : NameValue ν}
    (h : ((eventsOf log key).filter Event.isWrite).getLast? = some (.given newValue adminValue)) :
    nameOf log key = .assigned newValue adminValue := by
  apply foldl_of_getLast? (P := fun name => name = .assigned newValue adminValue) _ _ _ h
  · intro name
    cases name <;> rfl
  · rintro name other hother rfl
    cases other with
    | reserved => rfl
    | provided child => rfl
    | given => cases hother
    | deleted => cases hother

theorem nameOf_deleted {log : List (κ × Event ν)} {key : κ}
    (h : ((eventsOf log key).filter fun event => !event.isReservation).getLast? =
      some .deleted) : ∀ newValue adminValue, nameOf log key ≠ .assigned newValue adminValue := by
  apply foldl_of_getLast?
    (P := fun name => ∀ newValue adminValue, name ≠ .assigned newValue adminValue) _ _ _ h
  · intro name newValue adminValue
    cases name <;> exact nofun
  · intro name other hother hname
    cases other with
    | reserved => cases name with
      | absent => exact nofun
      | reserved => exact nofun
      | assigned newValue adminValue => exact absurd rfl (hname newValue adminValue)
    | provided child => cases hother
    | given => cases hother
    | deleted => cases hother

theorem nameOf_absent {log : List (κ × Event ν)} {key : κ}
    (h : (eventsOf log key).getLast? = some .deleted) : nameOf log key = .absent := by
  obtain ⟨events, heq⟩ := List.getLast?_eq_some_iff.mp h
  unfold nameOf
  rw [heq, List.foldl_append]
  exact Name.after_deleted _

end Names

section Phases

/-- Where a facet of a key stands. -/
inductive Phase (ν : Type) where
  | absent
  | reserved (pk : ℕ)
  | moving (pk : ℕ) (value : NameValue ν)
  | stored (value : NameValue ν)

namespace Phase

def value? : Phase ν → Option (NameValue ν)
  | .stored value => some value
  | _ => none

def kit? : Phase ν → Option ℕ
  | .reserved pk | .moving pk _ => some pk
  | _ => none

def state : Phase ν → PromiseState ν
  | .moving _ value => .fulfilled value
  | _ => .pending

def due (phase : Phase ν) (facet : Facet) (key : κ) : List (Job κ ν) :=
  match phase with
  | .moving _ value => [⟨facet, key, value⟩]
  | _ => []

/-- The phases in which a facet may be when its key has the name. -/
def IsOf (phase : Phase ν) (facet : Facet) : Name ν → Prop
  | .absent => phase = .absent
  | .reserved => ∃ pk, phase = .reserved pk
  | .assigned newValue adminValue =>
    (∃ pk, phase = .moving pk (facet.pick newValue adminValue)) ∨
      phase = .stored (facet.pick newValue adminValue)

end Phase

def Concerns (facet : Facet) (key : κ) (job : Job κ ν) : Bool := job.facet = facet ∧ job.key = key

/-- A facet of a key is in the phase. -/
structure Shows (s : Hub κ ν) (facet : Facet) (key : κ) (phase : Phase ν) : Prop where
  value : (s.vmap facet).lookup key = phase.value?
  kit : (s.pmap facet).lookup key = phase.kit?
  state : ∀ pk ∈ phase.kit?, s.kits[pk]? = some ⟨facet, key, phase.state⟩
  pending : ∀ pk : ℕ, s.kits[pk]? = some ⟨facet, key, .pending⟩ → phase.kit? = some pk
  due : s.jobs.filter (Concerns facet key) = phase.due facet key

/-- The facet of the key stands as it did. -/
structure Same (s t : Hub κ ν) (facet : Facet) (key : κ) : Prop where
  value : (t.vmap facet).lookup key = (s.vmap facet).lookup key
  kit : (t.pmap facet).lookup key = (s.pmap facet).lookup key
  kits : ∀ (pk : ℕ) (state : PromiseState ν),
    t.kits[pk]? = some ⟨facet, key, state⟩ ↔ s.kits[pk]? = some ⟨facet, key, state⟩
  due : t.jobs.filter (Concerns facet key) = s.jobs.filter (Concerns facet key)

variable {s t u : Hub κ ν} {facet : Facet} {key : κ} {phase : Phase ν}

theorem Same.trans (h : Same s t facet key) (h' : Same t u facet key) : Same s u facet key where
  value := h'.value.trans h.value
  kit := h'.kit.trans h.kit
  kits pk state := (h'.kits pk state).trans (h.kits pk state)
  due := h'.due.trans h.due

theorem Shows.same (h : Shows s facet key phase) (hsame : Same s t facet key) :
    Shows t facet key phase where
  value := hsame.value.trans h.value
  kit := hsame.kit.trans h.kit
  state pk hpk := (hsame.kits pk _).mpr (h.state pk hpk)
  pending pk hpk := h.pending pk ((hsame.kits pk _).mp hpk)
  due := hsame.due.trans h.due

theorem Shows.not_moving (h : Shows s facet key phase) (hkey : ¬ Moving s key) (pk : ℕ)
    (value : NameValue ν) : phase ≠ .moving pk value := by
  rintro rfl
  have hmem : (⟨facet, key, value⟩ : Job κ ν) ∈ s.jobs.filter (Concerns facet key) := by
    rw [h.due]
    exact List.mem_singleton_self _
  exact hkey (List.mem_map.mpr ⟨_, (List.mem_filter.mp hmem).1, Eq.refl _⟩)

theorem Shows.lookup (h : Shows s facet key phase) : s.lookup facet key =
    match phase with
    | .absent => .rejected
    | .reserved _ => .pending
    | .moving _ value => .fulfilled value
    | .stored value => .fulfilled value := by
  unfold Hub.lookup
  rw [h.value, h.kit]
  cases phase with
  | absent => exact Eq.refl _
  | reserved pk =>
    change ((s.kits[pk]?).map _).getD _ = _
    rw [h.state pk (Eq.refl _)]
    exact Eq.refl _
  | moving pk value =>
    change ((s.kits[pk]?).map _).getD _ = _
    rw [h.state pk (Eq.refl _)]
    exact Eq.refl _
  | stored value => exact Eq.refl _

end Phases

section Facets

variable {s : Hub κ ν} {facet : Facet} {key : κ} {phase : Phase ν}

/-- The kit of the placeholder is settled. -/
def settledWith (facet : Facet) (key : κ) (state : PromiseState ν) (kit : PromiseKit κ ν) :
    PromiseKit κ ν :=
  if kit.facet = facet ∧ kit.key = key then { kit with state := kit.state.orElse state } else kit

/-- What a step about one facet of a key leaves as it was. -/
structure Touches (s t : Hub κ ν) (facet : Facet) (key : κ) : Prop where
  elsewhere : ∀ facet' key', (facet' = facet → key' ≠ key) → Same s t facet' key'
  log : t.log = s.log
  lookups : t.lookups = s.lookups
  provided : t.provided = s.provided
  awaiting : t.awaiting = s.awaiting
  threw : t.threw = s.threw ∧ t.refused = s.refused

theorem getElem?_settledWith {kits : List (PromiseKit κ ν)} {state : PromiseState ν}
    {facet' : Facet} {key' : κ} (h : facet' = facet → key' ≠ key) (pk : ℕ)
    (state' : PromiseState ν) :
    (kits.map (settledWith facet key state))[pk]? = some ⟨facet', key', state'⟩ ↔
      kits[pk]? = some ⟨facet', key', state'⟩ := by
  rw [List.getElem?_map, Option.map_eq_some_iff]
  constructor
  · rintro ⟨kit, hkit, heq⟩
    unfold settledWith at heq
    split at heq
    case isTrue hmatch =>
      cases heq
      exact absurd hmatch.2 (h hmatch.1)
    case isFalse => rw [hkit, heq]
  · intro hkit
    refine ⟨_, hkit, ?_⟩
    unfold settledWith
    rw [if_neg fun hmatch => h hmatch.1 hmatch.2]

theorem Shows.settle_kits (h : Shows s facet key phase) {pk : ℕ} (hphase : phase = .reserved pk)
    (state : PromiseState ν) :
    s.kits.set pk ⟨facet, key, state⟩ = s.kits.map (settledWith facet key state) := by
  subst hphase
  have hpk := h.state pk rfl
  obtain ⟨hlt, hget⟩ := List.getElem?_eq_some_iff.mp hpk
  apply List.ext_getElem?
  intro i
  rw [List.getElem?_map, List.getElem?_set]
  split
  case isTrue heq =>
    subst heq
    rw [hpk, Option.map_some, settledWith, if_pos ⟨rfl, rfl⟩]
    rfl
  case isFalse hne =>
    cases hkit : s.kits[i]? with
    | none => rfl
    | some kit =>
      rw [Option.map_some, settledWith]
      split
      case isFalse => rfl
      case isTrue hmatch =>
        obtain ⟨facet', key', state'⟩ := kit
        obtain ⟨rfl, rfl⟩ := hmatch
        cases state' with
        | pending => exact absurd (Option.some.inj (h.pending i hkit)) hne
        | fulfilled value => rfl
        | rejected => rfl

theorem Shows.kits_settled (h : Shows s facet key phase) (hphase : ∀ pk, phase ≠ .reserved pk)
    (state : PromiseState ν) : s.kits = s.kits.map (settledWith facet key state) := by
  apply List.ext_getElem?
  intro i
  rw [List.getElem?_map]
  cases hkit : s.kits[i]? with
  | none => rfl
  | some kit =>
    rw [Option.map_some, settledWith]
    split
    case isFalse => rfl
    case isTrue hmatch =>
      obtain ⟨facet', key', state'⟩ := kit
      obtain ⟨rfl, rfl⟩ := hmatch
      cases state' with
      | pending =>
        have hpk := h.pending i hkit
        have hstate := h.state i hpk
        rw [hkit] at hstate
        cases phase with
        | absent => cases hpk
        | stored value => cases hpk
        | reserved pk => exact absurd rfl (hphase pk)
        | moving pk value => cases hstate
      | fulfilled value => rfl
      | rejected => rfl

theorem Touches.of_vmap (value : NameValue ν) : Touches s
    { s with vmap := Function.update s.vmap facet ((s.vmap facet).insert key value) }
    facet key where
  elsewhere facet' key' h := by
    refine ⟨?_, rfl, fun _ _ => Iff.rfl, rfl⟩
    dsimp only
    by_cases hfacet : facet' = facet
    · subst hfacet
      rw [Function.update_self, Table.lookup_insert, if_neg (h rfl)]
    · rw [Function.update_of_ne hfacet]
  log := rfl
  lookups := rfl
  provided := rfl
  awaiting := rfl
  threw := ⟨rfl, rfl⟩

theorem concerns_other {facet' : Facet} {key' : κ} (h : facet' = facet → key' ≠ key)
    (value : NameValue ν) : Concerns facet' key' (⟨facet, key, value⟩ : Job κ ν) = false :=
  decide_eq_false fun hmatch => h hmatch.1.symm hmatch.2.symm

theorem concerns_self (value : NameValue ν) :
    Concerns facet key (⟨facet, key, value⟩ : Job κ ν) = true :=
  decide_eq_true ⟨rfl, rfl⟩

theorem Shows.writeFacet (h : Shows s facet key phase)
    (hmoving : ∀ pk value, phase ≠ .moving pk value) (value : NameValue ν) :
    (∃ phase', Shows (s.writeFacet facet key value) facet key phase' ∧
      ((∃ pk, phase' = .moving pk value) ∨ phase' = .stored value)) ∧
    Touches s (s.writeFacet facet key value) facet key ∧
    (s.writeFacet facet key value).kits =
      s.kits.map (settledWith facet key (.fulfilled value)) := by
  unfold Hub.writeFacet
  rw [h.kit]
  have hstore : phase.kit? = none → (∀ pk, phase ≠ .reserved pk) → phase.due facet key = [] →
      (∃ phase', Shows { s with
        vmap := Function.update s.vmap facet ((s.vmap facet).insert key value) } facet key phase' ∧
          ((∃ pk, phase' = .moving pk value) ∨ phase' = .stored value)) ∧
        Touches s { s with
          vmap := Function.update s.vmap facet ((s.vmap facet).insert key value) } facet key ∧
        s.kits = s.kits.map (settledWith facet key (.fulfilled value)) := by
    intro hkit hreserved hdue
    refine ⟨⟨.stored value, ⟨?_, h.kit.trans hkit, nofun, ?_, h.due.trans hdue⟩, .inr rfl⟩,
      .of_vmap value, h.kits_settled hreserved _⟩
    · dsimp only
      rw [Function.update_self, Table.lookup_insert, if_pos rfl]
      rfl
    · intro pk hpk
      have hsome := h.pending pk hpk
      rw [hkit] at hsome
      cases hsome
  cases phase with
  | absent => exact hstore rfl nofun rfl
  | stored old => exact hstore rfl nofun rfl
  | moving pk old => exact absurd rfl (hmoving pk old)
  | reserved pk =>
    have hpk := h.state pk rfl
    have hkits := h.settle_kits rfl (.fulfilled value)
    change ((∃ phase', Shows (s.resolve pk value) facet key phase' ∧ _) ∧
      Touches s (s.resolve pk value) facet key ∧ (s.resolve pk value).kits = _)
    have hresolve : s.resolve pk value = { s with
        kits := s.kits.map (settledWith facet key (.fulfilled value))
        jobs := s.jobs ++ [⟨facet, key, value⟩] } := by
      unfold Hub.resolve Hub.settle
      rw [hpk]
      exact congrArg (fun kits => { s with
        kits, jobs := s.jobs ++ [(⟨facet, key, value⟩ : Job κ ν)] }) hkits
    rw [hresolve]
    refine ⟨⟨.moving pk value, ⟨h.value, h.kit, ?_, ?_, ?_⟩, .inl ⟨pk, rfl⟩⟩, ⟨?_, rfl, rfl, rfl,
      rfl, rfl, rfl⟩, rfl⟩
    · rintro pk' heq
      cases heq
      dsimp only
      rw [List.getElem?_map, hpk, Option.map_some, settledWith, if_pos ⟨rfl, rfl⟩]
      rfl
    · intro pk' hpk'
      dsimp only at hpk'
      rw [List.getElem?_map, Option.map_eq_some_iff] at hpk'
      obtain ⟨kit, -, heq⟩ := hpk'
      unfold settledWith at heq
      split at heq
      case isTrue =>
        obtain ⟨facet', key', state⟩ := kit
        cases state <;> cases heq
      case isFalse hmatch =>
        subst heq
        exact absurd ⟨rfl, rfl⟩ hmatch
    · dsimp only
      rw [List.filter_append, h.due, List.filter_cons_of_pos (concerns_self value)]
      rfl
    · intro facet' key' hne
      refine ⟨rfl, rfl, fun pk' state => getElem?_settledWith hne pk' state, ?_⟩
      dsimp only
      rw [List.filter_append, List.filter_cons_of_neg (by
        rw [concerns_other hne]
        exact Bool.false_ne_true), List.filter_nil, List.append_nil]

theorem Shows.reserveFacet (h : Shows s facet key .absent) :
    Shows (s.reserveFacet facet key) facet key (.reserved s.kits.length) ∧
    Touches s (s.reserveFacet facet key) facet key ∧
    ∀ (i : ℕ) kit, s.kits[i]? = some kit → (s.reserveFacet facet key).kits[i]? = some kit := by
  have hnone : (s.pmap facet).has key = false := by
    unfold Table.has
    rw [h.kit]
    rfl
  unfold Hub.reserveFacet
  rw [if_neg (by rw [hnone]; exact Bool.false_ne_true)]
  unfold Hub.makePromiseKit
  have hkeeps : ∀ (i : ℕ) kit, s.kits[i]? = some kit →
      (s.kits ++ [⟨facet, key, .pending⟩])[i]? = some kit := by
    intro i kit hkit
    rw [List.getElem?_append_left (List.getElem?_eq_some_iff.mp hkit).1]
    exact hkit
  have hnew : ∀ (i : ℕ) kit, (s.kits ++ [⟨facet, key, .pending⟩])[i]? = some kit →
      s.kits[i]? = some kit ∨ i = s.kits.length ∧ kit = ⟨facet, key, .pending⟩ := by
    intro i kit hkit
    rcases lt_trichotomy i s.kits.length with hlt | rfl | hgt
    · rw [List.getElem?_append_left hlt] at hkit
      exact .inl hkit
    · rw [List.getElem?_concat_length] at hkit
      exact .inr ⟨rfl, (Option.some.inj hkit).symm⟩
    · rw [List.getElem?_eq_none (by
        rw [List.length_append, List.length_singleton]
        exact hgt)] at hkit
      cases hkit
  refine ⟨⟨h.value, ?_, ?_, ?_, h.due⟩, ⟨?_, rfl, rfl, rfl, rfl, rfl, rfl⟩, hkeeps⟩
  · dsimp only
    rw [Function.update_self, Table.lookup_insert, if_pos rfl]
    rfl
  · rintro pk heq
    cases heq
    exact List.getElem?_concat_length
  · intro pk hpk
    rcases hnew pk _ hpk with hold | ⟨rfl, -⟩
    · cases h.pending pk hold
    · rfl
  · intro facet' key' hne
    refine ⟨rfl, ?_, ?_, rfl⟩
    · dsimp only
      by_cases hfacet : facet' = facet
      · subst hfacet
        rw [Function.update_self, Table.lookup_insert, if_neg (hne rfl)]
      · rw [Function.update_of_ne hfacet]
    · intro pk state
      constructor
      · intro hpk
        rcases hnew pk _ hpk with hold | ⟨-, heq⟩
        · exact hold
        · cases heq
          exact absurd rfl (hne rfl)
      · exact hkeeps pk _

theorem Shows.rejectFacet (h : Shows s facet key phase)
    (hmoving : ∀ pk value, phase ≠ .moving pk value) :
    s.rejectFacet facet key = { s with kits := s.kits.map (settledWith facet key .rejected) } := by
  unfold Hub.rejectFacet
  rw [h.kit]
  cases phase with
  | absent => exact congrArg (fun kits => { s with kits }) (h.kits_settled nofun .rejected)
  | stored old => exact congrArg (fun kits => { s with kits }) (h.kits_settled nofun .rejected)
  | moving pk old => exact absurd rfl (hmoving pk old)
  | reserved pk =>
    change s.settle pk .rejected = _
    unfold Hub.settle
    rw [h.state pk rfl]
    exact congrArg (fun kits => { s with kits }) (h.settle_kits rfl .rejected)

end Facets

section Invariant

structure NameInv (s : Hub κ ν) : Prop where
  shows : ∀ facet key, ∃ phase, Shows s facet key phase ∧ phase.IsOf facet (nameOf s.log key)
  lookups : ∀ l ∈ s.lookups, l.since ≤ s.log.length ∧ s.kits[l.kit]? =
    some ⟨l.facet, l.key, settledBy l.facet (eventsOf (s.log.drop l.since) l.key)⟩
  provided : ∀ r ∈ s.provided, r.since ≤ s.log.length ∧
    nameOf (s.log.take r.since) r.key = .assigned r.nameHub r.nameAdmin
  threw : s.threw = [] ∧ s.refused = []

/-- What a step about a key does to the rest of the hub, and to the kits of the key. -/
structure Settles (s t : Hub κ ν) (key : κ) (state : Facet → PromiseState ν) : Prop where
  elsewhere : ∀ facet key', key' ≠ key → Same s t facet key'
  lookups : t.lookups = s.lookups
  threw : t.threw = s.threw ∧ t.refused = s.refused
  kits : ∀ (i : ℕ) kit, s.kits[i]? = some kit → t.kits[i]? = some
    (if kit.key = key then { kit with state := kit.state.orElse (state kit.facet) } else kit)

variable {s t : Hub κ ν} {key : κ}

theorem Settles.of_touches {u : Hub κ ν} {state : Facet → PromiseState ν}
    (h : Touches s t .admin key) (h' : Touches t u .value key)
    (hkits : t.kits = s.kits.map (settledWith .admin key (state .admin)))
    (hkits' : u.kits = t.kits.map (settledWith .value key (state .value))) :
    Settles s u key state where
  elsewhere facet key' hne := (h.elsewhere facet key' fun _ => hne).trans
    (h'.elsewhere facet key' fun _ => hne)
  lookups := h'.lookups.trans h.lookups
  threw := ⟨h'.threw.1.trans h.threw.1, h'.threw.2.trans h.threw.2⟩
  kits i kit hkit := by
    obtain ⟨facet, key', state'⟩ := kit
    rw [hkits', hkits, List.getElem?_map, List.getElem?_map, hkit]
    unfold settledWith
    cases facet with
    | admin =>
      by_cases hkey : key' = key <;> simp [hkey]
    | value =>
      by_cases hkey : key' = key <;> simp [hkey]

theorem Same.of_fields {facet : Facet} (hvmap : t.vmap = s.vmap) (hpmap : t.pmap = s.pmap)
    (hkits : t.kits = s.kits) (hjobs : t.jobs = s.jobs) : Same s t facet key :=
  ⟨by rw [hvmap], by rw [hpmap], fun _ _ => by rw [hkits], by rw [hjobs]⟩

theorem NameInv.event (h : NameInv s) {event : Event ν} (hlog : t.log = s.log ++ [(key, event)])
    (hshows : ∀ facet, ∃ phase, Shows t facet key phase ∧
      phase.IsOf facet ((nameOf s.log key).after event))
    (hsettles : Settles s t key event.settles)
    (hprovided : ∀ r ∈ t.provided, r ∈ s.provided ∨ r.since = t.log.length ∧ r.key = key ∧
      (nameOf s.log key).after event = .assigned r.nameHub r.nameAdmin) : NameInv t where
  shows facet key' := by
    rw [hlog]
    by_cases hkey : key' = key
    · subst hkey
      rw [nameOf_append_self]
      exact hshows facet
    · rw [nameOf_append_other hkey]
      obtain ⟨phase, hphase, hname⟩ := h.shows facet key'
      exact ⟨phase, hphase.same (hsettles.elsewhere facet key' hkey), hname⟩
  lookups l hl := by
    rw [hsettles.lookups] at hl
    obtain ⟨hsince, hkit⟩ := h.lookups l hl
    rw [hlog, List.length_append, List.drop_append_of_le_length hsince, eventsOf_append]
    refine ⟨hsince.trans (Nat.le_add_right _ _), ?_⟩
    rw [hsettles.kits l.kit _ hkit]
    dsimp only
    split
    case isTrue hkey =>
      rw [hkey, eventsOf_self, settledBy_append]
    case isFalse hkey =>
      rw [eventsOf_other hkey, List.append_nil]
  provided r hr := by
    rcases hprovided r hr with hold | ⟨hsince, hkey, hname⟩
    · obtain ⟨hsince, hname⟩ := h.provided r hold
      rw [hlog, List.length_append, List.take_append_of_le_length hsince]
      exact ⟨hsince.trans (Nat.le_add_right _ _), hname⟩
    · refine ⟨hsince.le, ?_⟩
      rw [hsince, List.take_length, hlog, hkey, nameOf_append_self, hname]
  threw := ⟨hsettles.threw.1.trans h.threw.1, hsettles.threw.2.trans h.threw.2⟩

theorem NameInv.quiet (h : NameInv s) (hsame : ∀ facet key, Same s t facet key)
    (hkits : t.kits = s.kits) (hlog : t.log = s.log)
    (hthrew : t.threw = s.threw ∧ t.refused = s.refused)
    (hlookups : ∀ l ∈ t.lookups, l ∈ s.lookups ∨ l.since = s.log.length ∧
      s.kits[l.kit]? = some ⟨l.facet, l.key, .pending⟩)
    (hprovided : ∀ r ∈ t.provided, r ∈ s.provided ∨ r.since = s.log.length ∧
      nameOf s.log r.key = .assigned r.nameHub r.nameAdmin) : NameInv t where
  shows facet key := by
    obtain ⟨phase, hphase, hname⟩ := h.shows facet key
    exact ⟨phase, hphase.same (hsame facet key), hlog ▸ hname⟩
  lookups l hl := by
    rw [hlog, hkits]
    rcases hlookups l hl with hold | ⟨hsince, hpending⟩
    · exact h.lookups l hold
    · refine ⟨hsince.le, ?_⟩
      rw [hsince, List.drop_length]
      exact hpending
  provided r hr := by
    rw [hlog]
    rcases hprovided r hr with hold | ⟨hsince, hname⟩
    · exact h.provided r hold
    · refine ⟨hsince.le, ?_⟩
      rw [hsince, List.take_length]
      exact hname
  threw := ⟨hthrew.1.trans h.threw.1, hthrew.2.trans h.threw.2⟩

end Invariant

section Steps

variable {s : Hub κ ν} {key : κ}

theorem NameInv.write (h : NameInv s) (hkey : ¬ Moving s key) (newValue adminValue : NameValue ν) :
    (∀ facet, ∃ phase, Shows (s.write key newValue adminValue) facet key phase ∧
      phase.IsOf facet (.assigned newValue adminValue)) ∧
    Settles s (s.write key newValue adminValue) key
      (fun facet => .fulfilled (facet.pick newValue adminValue)) ∧
    (s.write key newValue adminValue).provided = s.provided := by
  obtain ⟨admin, hadmin, -⟩ := h.shows .admin key
  obtain ⟨value, hvalue, -⟩ := h.shows .value key
  obtain ⟨⟨admin', hadmin', hname⟩, htouches, hkits⟩ :=
    hadmin.writeFacet (fun pk old => hadmin.not_moving hkey pk old) adminValue
  have hvalueSame := hvalue.same (htouches.elsewhere .value key nofun)
  obtain ⟨⟨value', hvalue', hname'⟩, htouches', hkits'⟩ :=
    hvalueSame.writeFacet (fun pk old => hvalue.not_moving hkey pk old) newValue
  refine ⟨fun facet => ?_, .of_touches htouches htouches' hkits hkits',
    htouches'.provided.trans htouches.provided⟩
  cases facet with
  | admin => exact ⟨admin', hadmin'.same (htouches'.elsewhere .admin key nofun), hname⟩
  | value => exact ⟨value', hvalue', hname'⟩

theorem NameInv.update (h : NameInv s) (hkey : ¬ Moving s key)
    (newValue adminValue : NameValue ν) : NameInv (s.update key newValue adminValue) := by
  obtain ⟨hshows, hsettles, hprovided⟩ := h.write hkey newValue adminValue
  apply h.event rfl
  · intro facet
    obtain ⟨phase, hphase, hname⟩ := hshows facet
    rw [Name.after_given]
    exact ⟨phase, hphase.same (.of_fields rfl rfl rfl rfl), hname⟩
  · exact ⟨fun facet key' hne => (hsettles.elsewhere facet key' hne).trans
      (.of_fields rfl rfl rfl rfl), hsettles.lookups, hsettles.threw, hsettles.kits⟩
  · intro r hr
    left
    exact hprovided ▸ hr

theorem NameInv.delete (h : NameInv s) (hkey : ¬ Moving s key) : NameInv (s.delete key) := by
  obtain ⟨admin, hadmin, -⟩ := h.shows .admin key
  obtain ⟨value, hvalue, -⟩ := h.shows .value key
  let kits := s.kits.map (settledWith .admin key .rejected)
  have hadminKits : s.rejectFacet .admin key = { s with kits } :=
    hadmin.rejectFacet fun pk old => hadmin.not_moving hkey pk old
  have hvalueSame : Shows { s with kits } .value key value :=
    hvalue.same ⟨rfl, rfl, fun pk state =>
      getElem?_settledWith (show Facet.value = .admin → key ≠ key from nofun) pk state, rfl⟩
  have hdelete : s.delete key = { s with
      vmap := fun facet => (s.vmap facet).erase key
      pmap := fun facet => (s.pmap facet).erase key
      kits := kits.map (settledWith .value key .rejected)
      log := s.log ++ [(key, .deleted)] } := by
    unfold Hub.delete
    rw [hadminKits, hvalueSame.rejectFacet fun pk old => hvalue.not_moving hkey pk old]
  have hkits : ∀ (i : ℕ) kit, s.kits[i]? = some kit →
      (kits.map (settledWith .value key .rejected))[i]? = some
        (if kit.key = key then { kit with state := kit.state.orElse .rejected } else kit) := by
    intro i kit hkit
    obtain ⟨facet, key', state⟩ := kit
    rw [List.getElem?_map, List.getElem?_map, hkit]
    unfold settledWith
    cases facet with
    | admin => by_cases hsame : key' = key <;> simp [hsame]
    | value => by_cases hsame : key' = key <;> simp [hsame]
  rw [hdelete]
  apply h.event rfl
  · intro facet
    rw [Name.after_deleted]
    refine ⟨.absent, ⟨?_, ?_, nofun, ?_, ?_⟩, rfl⟩
    · dsimp only
      rw [Table.lookup_erase, if_pos rfl]
      rfl
    · dsimp only
      rw [Table.lookup_erase, if_pos rfl]
      rfl
    · intro pk hpk
      dsimp only at hpk
      have hlt : pk < s.kits.length := by
        have hlength := (List.getElem?_eq_some_iff.mp hpk).1
        rwa [List.length_map, List.length_map] at hlength
      rw [hkits pk _ (List.getElem?_eq_getElem hlt)] at hpk
      generalize s.kits[pk] = kit at hpk
      obtain ⟨facet', key', state⟩ := kit
      split at hpk
      case isTrue =>
        cases state <;> cases hpk
      case isFalse hne =>
        cases hpk
        exact absurd rfl hne
    · obtain ⟨phase, hphase, -⟩ := h.shows facet key
      dsimp only
      rw [hphase.due]
      cases phase with
      | moving pk old => exact absurd rfl (hphase.not_moving hkey pk old)
      | absent => rfl
      | reserved pk => rfl
      | stored old => rfl
  · refine ⟨fun facet key' hne => ⟨?_, ?_, ?_, rfl⟩, rfl, ⟨rfl, rfl⟩, hkits⟩
    · dsimp only
      rw [Table.lookup_erase, if_neg hne]
    · dsimp only
      rw [Table.lookup_erase, if_neg hne]
    · intro pk state
      exact (getElem?_settledWith (fun _ => hne) pk state).trans
        (getElem?_settledWith (fun _ => hne) pk state)
  · exact fun r hr => .inl hr

theorem NameInv.default (h : NameInv s) (hkey : s.keyToValue.has key = true ∨ ¬ Moving s key)
    (newValue adminValue : NameValue ν) : NameInv (s.default key newValue adminValue).2 := by
  unfold Hub.default
  split
  case h_1 => exact h
  case h_2 hnone =>
    rcases hkey with hhas | hkey
    · unfold Table.has at hhas
      rw [hnone] at hhas
      cases hhas
    · exact h.update hkey newValue adminValue

theorem Shows.has_value {facet : Facet} {phase : Phase ν} (h : Shows s facet key phase) :
    (s.vmap facet).has key = phase.value?.isSome := by
  unfold Table.has
  rw [h.value]

theorem Shows.has_kit {facet : Facet} {phase : Phase ν} (h : Shows s facet key phase) :
    (s.pmap facet).has key = phase.kit?.isSome := by
  unfold Table.has
  rw [h.kit]

theorem NameInv.assigned_of_value (h : NameInv s) {facet : Facet} {value : NameValue ν}
    (hvalue : (s.vmap facet).lookup key = some value) : ∃ newValue adminValue,
      nameOf s.log key = .assigned newValue adminValue ∧
        value = facet.pick newValue adminValue := by
  obtain ⟨phase, hphase, hof⟩ := h.shows facet key
  have hstored : phase = .stored value := by
    have heq := hphase.value.symm.trans hvalue
    cases phase with
    | stored old => exact congrArg _ (Option.some.inj heq)
    | absent => cases heq
    | reserved pk => cases heq
    | moving pk old => cases heq
  subst hstored
  cases hname : nameOf s.log key with
  | absent =>
    rw [hname] at hof
    cases hof
  | reserved =>
    rw [hname] at hof
    obtain ⟨pk, heq⟩ := hof
    cases heq
  | assigned newValue adminValue =>
    rw [hname] at hof
    rcases hof with ⟨pk, heq⟩ | heq
    · cases heq
    · exact ⟨newValue, adminValue, rfl, Phase.stored.inj heq⟩

theorem NameInv.reserve_present (h : NameInv s)
    (hkey : s.keyToAdmin.has key = true → s.keyToValue.has key = true)
    (hname : nameOf s.log key ≠ .absent) :
    s.reserve key = { s with log := s.log ++ [(key, .reserved)] } := by
  unfold Hub.reserve
  dsimp only
  split
  case isTrue => rfl
  case isFalse hvalue =>
    have hkits : ∀ facet, (s.pmap facet).has key = true := by
      intro facet
      obtain ⟨phase, hphase, hof⟩ := h.shows facet key
      rw [hphase.has_kit]
      cases phase with
      | reserved pk => rfl
      | moving pk value => rfl
      | absent =>
        exfalso
        cases hcase : nameOf s.log key with
        | absent => exact hname hcase
        | reserved =>
          rw [hcase] at hof
          obtain ⟨pk, heq⟩ := hof
          cases heq
        | assigned newValue adminValue =>
          rw [hcase] at hof
          rcases hof with ⟨pk, heq⟩ | heq <;> cases heq
      | stored value =>
        exfalso
        cases facet with
        | admin => exact hvalue (hkey hphase.has_value)
        | value => exact hvalue hphase.has_value
    unfold Hub.reserveFacet
    rw [if_pos (hkits .admin), if_pos (hkits .value)]

theorem NameInv.reserve (h : NameInv s)
    (hkey : s.keyToAdmin.has key = true → s.keyToValue.has key = true) :
    NameInv (s.reserve key) := by
  by_cases hname : nameOf s.log key = .absent
  · obtain ⟨admin, hadmin, hadminOf⟩ := h.shows .admin key
    obtain ⟨value, hvalue, hvalueOf⟩ := h.shows .value key
    rw [hname] at hadminOf hvalueOf
    obtain rfl : admin = .absent := hadminOf
    obtain rfl : value = .absent := hvalueOf
    obtain ⟨hadmin', htouches, hkits⟩ := hadmin.reserveFacet
    obtain ⟨hvalue', htouches', hkits'⟩ :=
      (hvalue.same (htouches.elsewhere .value key nofun)).reserveFacet
    have hreserve : s.reserve key = { (s.reserveFacet .admin key).reserveFacet .value key with
        log := s.log ++ [(key, .reserved)] } := by
      unfold Hub.reserve
      rw [if_neg (by rw [hvalue.has_value]; exact Bool.false_ne_true)]
    rw [hreserve]
    apply h.event rfl
    · intro facet
      rw [hname]
      cases facet with
      | admin =>
        exact ⟨_, (hadmin'.same (htouches'.elsewhere .admin key nofun)).same
          (.of_fields rfl rfl rfl rfl), _, rfl⟩
      | value => exact ⟨_, hvalue'.same (.of_fields rfl rfl rfl rfl), _, rfl⟩
    · refine ⟨fun facet key' hne => ((htouches.elsewhere facet key' fun _ => hne).trans
        (htouches'.elsewhere facet key' fun _ => hne)).trans (.of_fields rfl rfl rfl rfl),
        htouches'.lookups.trans htouches.lookups,
        ⟨htouches'.threw.1.trans htouches.threw.1, htouches'.threw.2.trans htouches.threw.2⟩, ?_⟩
      intro i kit hkit
      rw [orElse_pending]
      exact hkits' i _ (hkits i kit hkit)
    · intro r hr
      exact .inl (htouches.provided ▸ htouches'.provided ▸ hr)
  · rw [h.reserve_present hkey hname]
    apply h.event rfl
    · intro facet
      obtain ⟨phase, hphase, hof⟩ := h.shows facet key
      refine ⟨phase, hphase.same (.of_fields rfl rfl rfl rfl), ?_⟩
      cases hcase : nameOf s.log key with
      | absent => exact absurd hcase hname
      | reserved =>
        rw [hcase] at hof
        exact hof
      | assigned newValue adminValue =>
        rw [hcase] at hof
        exact hof
    · refine ⟨fun facet key' hne => .of_fields rfl rfl rfl rfl, rfl, ⟨rfl, rfl⟩, ?_⟩
      intro i kit hkit
      rw [orElse_pending]
      exact hkit
    · exact fun r hr => .inl hr

theorem NameInv.provideChild (h : NameInv s)
    (hkey : s.keyToAdmin.has key = true → s.keyToValue.has key = true) :
    NameInv (s.provideChild key) := by
  unfold Hub.provideChild
  split
  case h_2 =>
    exact h.quiet (fun _ _ => .of_fields rfl rfl rfl rfl) rfl rfl ⟨rfl, rfl⟩ (fun l hl => .inl hl)
      fun r hr => .inl hr
  case h_1 childAdmin hadmin =>
    split
    case h_2 hnone =>
      have hhas := hkey (Table.has_of_lookup hadmin)
      unfold Table.has at hhas
      rw [hnone] at hhas
      cases hhas
    case h_1 childHub hvalue =>
      refine h.quiet (fun _ _ => .of_fields rfl rfl rfl rfl) rfl rfl ⟨rfl, rfl⟩
        (fun l hl => .inl hl) ?_
      intro r hr
      rcases List.mem_append.mp hr with hold | hnew
      · exact .inl hold
      · cases List.mem_singleton.mp hnew
        obtain ⟨newValue, adminValue, hname, rfl⟩ := h.assigned_of_value hadmin
        obtain ⟨newValue', adminValue', hname', rfl⟩ := h.assigned_of_value hvalue
        rw [hname] at hname'
        cases hname'
        exact .inr ⟨rfl, hname⟩

theorem NameInv.childReserved {t : Hub κ ν} {i : ℕ} (h : NameInv s)
    (hcall : ∀ call ∈ s.awaiting[i]?, s.keyToAdmin.has call.1 = false ∧ ¬ Moving s call.1)
    (hstep : s.childReserved i = some t) : NameInv t := by
  unfold Hub.childReserved at hstep
  split at hstep
  case h_1 => cases hstep
  case h_2 key child hawaiting =>
    obtain ⟨hadmin, hkey⟩ := hcall (key, child) hawaiting
    cases hstep
    obtain ⟨hshows, hsettles, hprovided⟩ :=
      h.write hkey (.childHub child) (.childAdmin child)
    have hname : (nameOf s.log key).after (.provided child) =
        .assigned (.childHub child) (.childAdmin child) := by
      cases hcase : nameOf s.log key with
      | absent => rfl
      | reserved => rfl
      | assigned newValue adminValue =>
        -- the admin would be in the map or due to be moved there
        obtain ⟨phase, hphase, hof⟩ := h.shows .admin key
        rw [hcase] at hof
        rcases hof with ⟨pk, rfl⟩ | rfl
        · exact absurd rfl (hphase.not_moving hkey pk _)
        · have hhas := hphase.has_value
          rw [hadmin] at hhas
          cases hhas
    apply h.event rfl
    · intro facet
      obtain ⟨phase, hphase, hof⟩ := hshows facet
      rw [hname]
      exact ⟨phase, hphase.same (.of_fields rfl rfl rfl rfl), hof⟩
    · exact ⟨fun facet key' hne => (hsettles.elsewhere facet key' hne).trans
        (.of_fields rfl rfl rfl rfl), hsettles.lookups, hsettles.threw, hsettles.kits⟩
    · intro r hr
      rcases List.mem_append.mp hr with hold | hnew
      · exact .inl (hprovided ▸ hold)
      · cases List.mem_singleton.mp hnew
        exact .inr ⟨rfl, rfl, hname⟩

theorem NameInv.lookedUp (h : NameInv s) (facet : Facet) (key : κ) :
    NameInv (s.lookedUp facet key) := by
  unfold Hub.lookedUp
  split
  case h_2 => exact h
  case h_1 pk hkit hpending =>
    refine h.quiet (fun _ _ => .of_fields rfl rfl rfl rfl) rfl rfl ⟨rfl, rfl⟩ ?_ fun r hr => .inl hr
    intro l hl
    rcases List.mem_append.mp hl with hold | hnew
    · exact .inl hold
    · cases List.mem_singleton.mp hnew
      obtain ⟨phase, hphase, -⟩ := h.shows facet key
      rw [hphase.lookup] at hpending
      have hsome := hphase.kit.symm.trans hkit
      cases phase with
      | reserved pk' =>
        cases hsome
        exact .inr ⟨rfl, hphase.state pk rfl⟩
      | absent => cases hsome
      | moving pk' value => cases hpending
      | stored value => cases hsome

theorem NameInv.react {t : Hub κ ν} (h : NameInv s) (hstep : s.react = some t) : NameInv t := by
  unfold Hub.react at hstep
  cases hjobs : s.jobs with
  | nil =>
    rw [hjobs] at hstep
    cases hstep
  | cons job jobs =>
    obtain ⟨facet, key, value⟩ := job
    rw [hjobs] at hstep
    dsimp only at hstep
    obtain ⟨phase, hphase, hof⟩ := h.shows facet key
    have hdue := hphase.due
    rw [hjobs, List.filter_cons_of_pos (concerns_self value)] at hdue
    cases phase with
    | absent => cases hdue
    | reserved pk => cases hdue
    | stored old => cases hdue
    | moving pk old =>
      obtain ⟨heq, hrest⟩ := List.cons.inj hdue
      cases heq
      have hnone : (s.vmap facet).has key = false := hphase.has_value
      rw [if_neg (by rw [hnone]; exact Bool.false_ne_true)] at hstep
      cases hstep
      have hother : ∀ facet' key', (facet' = facet → key' ≠ key) → Same s { s with
          jobs
          vmap := Function.update s.vmap facet ((s.vmap facet).insert key value)
          pmap := Function.update s.pmap facet ((s.pmap facet).erase key) } facet' key' := by
        intro facet' key' hne
        refine ⟨?_, ?_, fun _ _ => Iff.rfl, ?_⟩
        · dsimp only
          by_cases hfacet : facet' = facet
          · subst hfacet
            rw [Function.update_self, Table.lookup_insert, if_neg (hne rfl)]
          · rw [Function.update_of_ne hfacet]
        · dsimp only
          by_cases hfacet : facet' = facet
          · subst hfacet
            rw [Function.update_self, Table.lookup_erase, if_neg (hne rfl)]
          · rw [Function.update_of_ne hfacet]
        · dsimp only
          rw [hjobs, List.filter_cons_of_neg (by
            rw [concerns_other hne]
            exact Bool.false_ne_true)]
      constructor
      case lookups => exact h.lookups
      case provided => exact h.provided
      case threw => exact h.threw
      case shows =>
        intro facet' key'
        by_cases hsame : facet' = facet ∧ key' = key
        · obtain ⟨rfl, rfl⟩ := hsame
          refine ⟨.stored value, ⟨?_, ?_, nofun, ?_, hrest⟩, ?_⟩
          · dsimp only
            rw [Function.update_self, Table.lookup_insert, if_pos rfl]
            rfl
          · dsimp only
            rw [Function.update_self, Table.lookup_erase, if_pos rfl]
            rfl
          · intro pk' hpk'
            have hkit := hphase.pending pk' hpk'
            have hstate := hphase.state pk' hkit
            rw [hpk'] at hstate
            cases hstate
          · dsimp only
            cases hcase : nameOf s.log key' with
            | absent =>
              rw [hcase] at hof
              cases hof
            | reserved =>
              rw [hcase] at hof
              obtain ⟨pk', heq⟩ := hof
              cases heq
            | assigned newValue adminValue =>
              rw [hcase] at hof
              rcases hof with ⟨pk', heq⟩ | heq
              · cases heq
                exact .inr rfl
              · cases heq
        · obtain ⟨phase', hphase', hof'⟩ := h.shows facet' key'
          exact ⟨phase', hphase'.same (hother facet' key' fun hf hk => hsame ⟨hf, hk⟩), hof'⟩

theorem NameInv.step {t : Hub κ ν} (h : NameInv s) {a : Action κ ν} (hok : orderly s a)
    (hstep : s.step a = some t) : NameInv t := by
  cases a with
  | reserve key =>
    cases hstep
    exact h.reserve hok
  | default key newValue adminValue =>
    cases hstep
    exact h.default hok newValue adminValue
  | set key newValue adminValue =>
    obtain ⟨-, heq⟩ := Option.ite_none_right_eq_some.mp hstep
    cases heq
    exact h.update hok newValue adminValue
  | update key newValue adminValue =>
    cases hstep
    exact h.update hok newValue adminValue
  | delete key =>
    cases hstep
    exact h.delete hok
  | provideChild key =>
    cases hstep
    exact h.provideChild hok
  | childReserved i => exact h.childReserved hok hstep
  | lookup facet key =>
    cases hstep
    exact h.lookedUp facet key
  | react => exact h.react hstep

theorem isOf_absent {facet : Facet} {phase : Phase ν} {name : Name ν} (h : phase.IsOf facet name)
    (hname : ∀ newValue adminValue, name ≠ .assigned newValue adminValue) :
    phase.value? = none := by
  cases name with
  | absent =>
    cases h
    rfl
  | reserved =>
    obtain ⟨pk, rfl⟩ := h
    rfl
  | assigned newValue adminValue => exact absurd rfl (hname newValue adminValue)

theorem NameInv.actsAsMap (h : NameInv s) : ActsAsMap s where
  updated key newValue adminValue hlast := by
    have hname := nameOf_given hlast
    have hlookup : ∀ facet, s.lookup facet key = .fulfilled (facet.pick newValue adminValue) := by
      intro facet
      obtain ⟨phase, hphase, hof⟩ := h.shows facet key
      rw [hname] at hof
      rw [hphase.lookup]
      rcases hof with ⟨pk, rfl⟩ | rfl <;> rfl
    exact ⟨hlookup .value, hlookup .admin⟩
  deleted key hlast := by
    have hnone : ∀ facet, (s.vmap facet).has key = false := by
      intro facet
      obtain ⟨phase, hphase, hof⟩ := h.shows facet key
      rw [hphase.has_value, isOf_absent hof (nameOf_deleted hlast)]
      rfl
    exact ⟨hnone .value, hnone .admin⟩
  absent key hlast := by
    have habsent : ∀ facet, Shows s facet key .absent := by
      intro facet
      obtain ⟨phase, hphase, hof⟩ := h.shows facet key
      rw [nameOf_absent hlast] at hof
      exact hof ▸ hphase
    refine ⟨?_, (habsent .value).lookup, (habsent .admin).lookup⟩
    unfold Hub.has
    rw [(habsent .value).has_value, (habsent .value).has_kit]
    rfl
  awaited l hl := by
    rw [(h.lookups l hl).2]
    rfl
  disjoint key := by
    rintro ⟨hvalue, hkit⟩
    obtain ⟨phase, hphase, -⟩ := h.shows .value key
    rw [hphase.has_value] at hvalue
    rw [hphase.has_kit] at hkit
    cases phase with
    | absent => cases hvalue
    | reserved pk => cases hvalue
    | moving pk value => cases hvalue
    | stored value => cases hkit
  undisturbed := h.threw
  sameChild r hr r' hr' hkey hsince hwrites := by
    obtain ⟨-, hname⟩ := h.provided r hr
    obtain ⟨-, hname'⟩ := h.provided r' hr'
    have hsplit : s.log.take r'.since =
        s.log.take r.since ++ (s.log.take r'.since).drop r.since := by
      nth_rewrite 1 [← List.take_append_drop r.since (s.log.take r'.since)]
      rw [List.take_take, min_eq_left hsince]
    unfold nameOf at hname hname'
    rw [← hkey, hsplit, eventsOf_append, List.foldl_append, hname, foldl_assigned hwrites] at hname'
    exact Name.assigned.inj hname'

/-- In every run in which no key is written while a placeholder of it is being moved, and no
child is provided for a key that has got an admin in the meantime, the hub is a map with
placeholders. -/
theorem nameHub_actsAsMap (h : (nameHub κ ν).Reachable orderly s) : ActsAsMap s := by
  apply NameInv.actsAsMap
  apply h.invariant
  · rintro s rfl
    constructor
    case shows =>
      exact fun facet key => ⟨.absent, ⟨rfl, rfl, nofun, nofun, rfl⟩, rfl⟩
    case lookups => exact nofun
    case provided => exact nofun
    case threw => exact ⟨rfl, rfl⟩
  · exact fun s a t hs hok hstep => hs.step hok hstep

/-- A key is reserved, looked up and given a value, which moves; another gets a child, twice. -/
def orderlyCalls : List (Action ℕ ℕ) :=
  [.reserve 0, .lookup .value 0, .update 0 (.plain 1) (.plain 2), .react, .react,
    .set 0 (.plain 3) (.plain 4), .provideChild 5, .childReserved 0, .provideChild 5]

theorem nameHub_actsAsMap_orderly : ∃ s : Hub ℕ ℕ,
    (s.lookup .value 0 = .fulfilled (.plain 3) ∧ s.lookups.length = 1 ∧ s.provided.length = 2) ∧
      ActsAsMap s := by
  have hrun : ((nameHub ℕ ℕ).runWhile orderly {} orderlyCalls).map (fun s =>
      (s.lookup .value 0, s.lookups.length, s.provided.length)) =
      some (.fulfilled (.plain 3), 1, 2) := by
    decide +kernel
  obtain ⟨s, hs, heq⟩ := Option.map_eq_some_iff.mp hrun
  simp only [Prod.mk.injEq] at heq
  exact ⟨s, heq, nameHub_actsAsMap (.of_runWhile (.init rfl) hs)⟩

/-- A reserved key is updated twice before its placeholder is moved, and keeps the first value. -/
theorem nameHub_secondUpdate :
    ¬ ∀ s : Hub ℕ ℕ, (nameHub ℕ ℕ).Reachable anyStep s → ActsAsMap s := by
  intro hall
  have hrun : ((nameHub ℕ ℕ).runWhile anyStep {} [.reserve 0, .update 0 (.plain 1) (.plain 2),
      .update 0 (.plain 3) (.plain 4), .react, .react]).map (fun s =>
      (s.lookup .value 0, ((eventsOf s.log 0).filter Event.isWrite).getLast?)) =
      some (.fulfilled (.plain 1), some (.given (.plain 3) (.plain 4))) := by
    decide +kernel
  obtain ⟨s, hs, heq⟩ := Option.map_eq_some_iff.mp hrun
  simp only [Prod.mk.injEq] at heq
  have hlookup := ((hall s (.of_runWhile (.init rfl) hs)).updated 0 _ _ heq.2).1
  rw [heq.1] at hlookup
  cases hlookup

end Steps

end AgoricSdk.NameHub
