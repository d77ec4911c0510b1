import AgoricSdk.AsyncFlow.Flow

/-!
What the conversions between host and guest values do to a flow: they extend the
bijection, note new guest promises in the membrane, and touch nothing else.
-/

namespace AgoricSdk.AsyncFlow

open StateProgram

section Images

/-- The guest leaf stands for the host leaf. -/
inductive LeafImage (h2g : Table HostCap GuestCap) : Leaf HostCap → Leaf GuestCap → Prop
  | cap {h : HostCap} {g : GuestCap} (hg : h2g.lookup h = some g) : LeafImage h2g (.cap h) (.cap g)
  | error (name : String) : LeafImage h2g (.error name) (.error name)

/-- The guest value stands for the host value. -/
structure Image (h2g : Table HostCap GuestCap) (h : HostValue) (g : GuestValue) : Prop where
  skeleton : g.skeleton = h.skeleton
  leaves : List.Forall₂ (LeafImage h2g) h.leaves g.leaves

end Images

section Coherence

/-- The identities in use are old, and the handlers of host vows are about the
guest promises of the bijection. -/
structure Coherent (s : Flow) : Prop where
  h2g : ∀ h k, s.h2g.lookup h = some (.wrapper k) → k < s.nextGuest
  g2h : ∀ k, s.g2h.has (.wrapper k) = true → k < s.nextGuest
  promises : ∀ membrane, s.membrane = some membrane →
    ∀ k, membrane.guestPromiseMap.has (.wrapper k) = true → k < s.nextGuest
  watchers : ∀ membrane, s.membrane = some membrane →
    ∀ w ∈ membrane.watchers, s.h2g.lookup (.vow w.1) = some w.2

/-- What a conversion may do to a membrane. -/
structure Membrane.Grows (membrane membrane' : Membrane) : Prop where
  frame : membrane' = { membrane with
    guestPromiseMap := membrane'.guestPromiseMap
    watchers := membrane'.watchers }
  settled : ∀ key, membrane.guestPromiseMap.lookup key = some .settled →
    membrane'.guestPromiseMap.lookup key = some .settled

theorem Membrane.Grows.refl (membrane : Membrane) : membrane.Grows membrane :=
  ⟨rfl, fun _ h => h⟩

theorem Membrane.Grows.trans {a b c : Membrane} (h : a.Grows b) (h' : b.Grows c) : a.Grows c where
  frame := by
    rw [h'.frame, h.frame]
  settled := fun key hkey => h'.settled key (h.settled key hkey)

/-- What a conversion of values may do to a flow. -/
structure Converts (s t : Flow) : Prop where
  frame : t = { s with
    g2h := t.g2h
    h2g := t.h2g
    membrane := t.membrane
    nextGuest := t.nextGuest }
  h2g : ∀ h g, s.h2g.lookup h = some g → t.h2g.lookup h = some g
  own : ∀ k, t.g2h.has (.own k) = s.g2h.has (.own k)
  membrane : Option.Rel Membrane.Grows s.membrane t.membrane

theorem Converts.refl (s : Flow) : Converts s s where
  frame := rfl
  h2g := fun _ _ h => h
  own := fun _ => rfl
  membrane := by
    cases s.membrane with
    | none => exact .none
    | some membrane => exact .some (.refl membrane)

theorem Converts.trans {s t u : Flow} (h : Converts s t) (h' : Converts t u) : Converts s u where
  frame := by
    rw [h'.frame, h.frame]
  h2g := fun x g hx => h'.h2g x g (h.h2g x g hx)
  own := fun k => (h'.own k).trans (h.own k)
  membrane := by
    have hst := h.membrane
    have htu := h'.membrane
    generalize s.membrane = a at hst ⊢
    generalize t.membrane = b at hst htu
    generalize u.membrane = c at htu ⊢
    cases hst with
    | none =>
      cases htu
      exact .none
    | some hab =>
      cases htu with
      | some hbc => exact .some (hab.trans hbc)

variable {isStorable : HostCap → Bool} {s : Flow} {h : HostCap}

/-- Can a guest get a wrapper for the host capability? -/
def isConvertible (isStorable : HostCap → Bool) : HostCap → Bool
  | .remotable _ => true
  | .farFunction _ | .promise _ => false
  | .vow id => isStorable (.vow id)

/-- What the membrane notes of a new guest wrapper. -/
def noteWrapper (h : HostCap) (n : Nat) (membrane : Membrane) : Membrane :=
  match h with
  | .vow id =>
    { membrane with
      guestPromiseMap := membrane.guestPromiseMap.insert (.wrapper n) .unresolved
      watchers := membrane.watchers ++ [(id, .wrapper n)] }
  | _ => membrane

/-- A new guest wrapper for a host capability. -/
def Flow.wrapped (s : Flow) (h : HostCap) : Flow :=
  { s with
    g2h := s.g2h.insert (.wrapper s.nextGuest) h
    h2g := s.h2g.insert h (.wrapper s.nextGuest)
    nextGuest := s.nextGuest + 1
    membrane := s.membrane.map (noteWrapper h s.nextGuest) }

theorem Coherent.newPromise (hs : Coherent s) {membrane : Membrane}
    (hm : s.membrane = some membrane) (watchers : List (VowId × GuestCap)) :
    membrane.Grows { membrane with
      guestPromiseMap := membrane.guestPromiseMap.insert (.wrapper s.nextGuest) .unresolved
      watchers := watchers } where
  frame := rfl
  settled := fun key hkey => by
    have hne : key ≠ .wrapper s.nextGuest := by
      rintro rfl
      have := hs.promises membrane hm _ (Table.has_of_lookup hkey)
      omega
    simp [hne, hkey]

theorem Coherent.noteWrapper_grows (hs : Coherent s) {membrane : Membrane}
    (hm : s.membrane = some membrane) (h : HostCap) :
    membrane.Grows (noteWrapper h s.nextGuest membrane) := by
  cases h with
  | vow id => exact hs.newPromise hm _
  | remotable | farFunction | promise => exact .refl membrane

theorem noteWrapper_promises {n k : Nat} {membrane : Membrane}
    (hk : (noteWrapper h n membrane).guestPromiseMap.has (.wrapper k) = true) :
    membrane.guestPromiseMap.has (.wrapper k) = true ∨ k = n := by
  cases h with
  | vow id =>
    rcases Table.has_insert_iff.mp hk with hkey | hold
    · cases hkey
      exact Or.inr rfl
    · exact Or.inl hold
  | remotable | farFunction | promise => exact Or.inl hk

theorem noteWrapper_watchers {n : Nat} {membrane : Membrane} {w : VowId × GuestCap}
    (hw : w ∈ (noteWrapper h n membrane).watchers) :
    w ∈ membrane.watchers ∨ h = .vow w.1 ∧ w.2 = .wrapper n := by
  cases h with
  | vow id =>
    rcases List.mem_append.mp hw with hold | hnew
    · exact Or.inl hold
    · rw [List.mem_singleton] at hnew
      rw [hnew]
      exact Or.inr ⟨rfl, rfl⟩
  | remotable | farFunction | promise => exact Or.inl hw

theorem wrapped_mono (hnone : s.h2g.lookup h = none) :
    ∀ x g, s.h2g.lookup x = some g → (s.wrapped h).h2g.lookup x = some g := by
  intro x g hx
  have hne : x ≠ h := by
    rintro rfl
    rw [hnone] at hx
    cases hx
  simp [Flow.wrapped, hne, hx]

theorem Coherent.wrapped (hs : Coherent s) (hnone : s.h2g.lookup h = none) :
    Coherent (s.wrapped h) := by
  constructor
  · intro x k hx
    simp only [Flow.wrapped, Table.lookup_insert] at hx ⊢
    split at hx
    · cases hx
      omega
    · have := hs.h2g x k hx
      omega
  · intro k hk
    simp only [Flow.wrapped, Table.has_insert_iff] at hk ⊢
    rcases hk with hk | hk
    · cases hk
      omega
    · have := hs.g2h k hk
      omega
  · intro membrane' hm k hk
    obtain ⟨membrane, hmembrane, rfl⟩ := Option.map_eq_some_iff.mp hm
    show k < s.nextGuest + 1
    rcases noteWrapper_promises hk with hold | rfl
    · have := hs.promises membrane hmembrane k hold
      omega
    · omega
  · intro membrane' hm w hw
    obtain ⟨membrane, hmembrane, rfl⟩ := Option.map_eq_some_iff.mp hm
    rcases noteWrapper_watchers hw with hold | ⟨rfl, hkey⟩
    · exact wrapped_mono hnone _ _ (hs.watchers membrane hmembrane w hold)
    · simp [Flow.wrapped, hkey]

theorem Coherent.wrapped_converts (hs : Coherent s) (hnone : s.h2g.lookup h = none) :
    Converts s (s.wrapped h) where
  frame := rfl
  h2g := wrapped_mono hnone
  own := fun k => by simp [Flow.wrapped, Table.has]
  membrane := by
    cases hm : s.membrane with
    | none =>
      simp only [Flow.wrapped, hm, Option.map_none]
      exact .none
    | some membrane =>
      simp only [Flow.wrapped, hm, Option.map_some]
      exact .some (hs.noteWrapper_grows hm h)

/-- A guest promise that its membrane knows of and that stands for no vow. -/
def Flow.promised (s : Flow) : Flow :=
  { s with
    nextGuest := s.nextGuest + 1
    membrane := s.membrane.map fun membrane =>
      { membrane with
        guestPromiseMap := membrane.guestPromiseMap.insert (.wrapper s.nextGuest) .unresolved } }

theorem Coherent.promised (hs : Coherent s) : Converts s s.promised ∧ Coherent s.promised := by
  refine ⟨⟨rfl, fun _ _ hx => hx, fun _ => rfl, ?_⟩, ?_⟩
  · cases hm : s.membrane with
    | none =>
      simp only [Flow.promised, hm, Option.map_none]
      exact .none
    | some membrane =>
      simp only [Flow.promised, hm, Option.map_some]
      exact .some (hs.newPromise hm membrane.watchers)
  · constructor
    · exact fun x k hx => Nat.lt_succ_of_lt (hs.h2g x k hx)
    · exact fun k hk => Nat.lt_succ_of_lt (hs.g2h k hk)
    · intro membrane' hm k hk
      obtain ⟨membrane, hmembrane, rfl⟩ := Option.map_eq_some_iff.mp hm
      rcases Table.has_insert_iff.mp hk with hkey | hold
      · cases hkey
        exact Nat.lt_succ_self _
      · exact Nat.lt_succ_of_lt (hs.promises membrane hmembrane k hold)
    · intro membrane' hm w hw
      obtain ⟨membrane, hmembrane, rfl⟩ := Option.map_eq_some_iff.mp hm
      exact hs.watchers membrane hmembrane w hw

theorem Coherent.notHas (hs : Coherent s) : s.g2h.has (.wrapper s.nextGuest) = false := by
  rw [Bool.eq_false_iff]
  intro hk
  have := hs.g2h _ hk
  omega

theorem hostCapToGuest_new (hs : Coherent s) (hnone : s.h2g.lookup h = none)
    (hconvertible : isConvertible isStorable h = true) :
    Wp (hostCapToGuest isStorable h)
      (fun g t => g = .wrapper s.nextGuest ∧ t = s.wrapped h) (fun _ _ => False) s := by
  have hhas : s.h2g.has h = false := by
    simp [Table.has, hnone]
  unfold hostCapToGuest
  rw [wp_bind, wp_get, hnone]
  cases h with
  | remotable id =>
    simp only [makeGuestForHost, makeGuestForHostRemotable, freshGuest, unwrapInit, wp_bind,
      wp_get, wp_modify, wp_pure, hhas, hs.notHas, Bool.false_eq_true, if_false]
    refine ⟨trivial, ?_⟩
    have hsame : noteWrapper (.remotable id) s.nextGuest = fun membrane => membrane := rfl
    simp [Flow.wrapped, hsame]
  | farFunction id => cases hconvertible
  | promise id => cases hconvertible
  | vow id =>
    have hstorable : isStorable (.vow id) = true := hconvertible
    simp only [makeGuestForHost, makeGuestForHostVow, freshGuest, modifyMembrane, watchWake,
      unwrapInit, wp_bind, wp_get, wp_modify]
    rw [hstorable, if_pos rfl]
    simp only [wp_bind, wp_modify, wp_pure, hhas, hs.notHas, Bool.false_eq_true, if_false,
      Option.map_map]
    exact ⟨trivial, rfl⟩

theorem hostCapToGuest_refused (hnone : s.h2g.lookup h = none)
    (hconvertible : isConvertible isStorable h = false) :
    Wp (hostCapToGuest isStorable h) (fun _ _ => False)
      (fun _ t => t = s ∨ t = s.promised) s := by
  unfold hostCapToGuest
  rw [wp_bind, wp_get, hnone]
  cases h with
  | remotable id => cases hconvertible
  | farFunction id => exact Or.inl rfl
  | promise id => exact Or.inl rfl
  | vow id =>
    have hstorable : isStorable (.vow id) = false := hconvertible
    simp only [makeGuestForHost, makeGuestForHostVow, freshGuest, modifyMembrane, watchWake,
      wp_bind, wp_get, wp_modify]
    rw [hstorable, if_neg Bool.false_ne_true]
    exact Or.inr rfl

theorem hostCapToGuest_known {g : GuestCap} {Q : GuestCap → Flow → Prop}
    {E : Problem → Flow → Prop} (hlookup : s.h2g.lookup h = some g) (hq : Q g s) :
    Wp (hostCapToGuest isStorable h) Q E s := by
  unfold hostCapToGuest
  rw [wp_bind, wp_get, hlookup]
  exact hq

theorem hostCapToGuest_spec (hs : Coherent s) (h : HostCap) :
    Wp (hostCapToGuest isStorable h)
      (fun g t => Converts s t ∧ Coherent t ∧ t.h2g.lookup h = some g)
      (fun _ t => Converts s t ∧ Coherent t) s := by
  cases hlookup : s.h2g.lookup h with
  | some g => exact hostCapToGuest_known hlookup ⟨.refl s, hs, hlookup⟩
  | none =>
    cases hconvertible : isConvertible isStorable h with
    | true =>
      apply wp_mono (hostCapToGuest_new hs hlookup hconvertible)
      · rintro g t ⟨rfl, rfl⟩
        exact ⟨hs.wrapped_converts hlookup, hs.wrapped hlookup, by simp [Flow.wrapped]⟩
      · exact fun _ _ he => he.elim
    | false =>
      apply wp_mono (hostCapToGuest_refused hlookup hconvertible)
      · exact fun _ _ hq => hq.elim
      · rintro _ t (rfl | rfl)
        · exact ⟨.refl t, hs⟩
        · exact hs.promised

end Coherence

section Values

variable {isStorable : HostCap → Bool} {s : Flow}

theorem LeafImage.mono {h2g h2g' : Table HostCap GuestCap}
    (hmono : ∀ x g, h2g.lookup x = some g → h2g'.lookup x = some g) {l : Leaf HostCap}
    {l' : Leaf GuestCap} (hl : LeafImage h2g l l') : LeafImage h2g' l l' := by
  cases hl with
  | cap hg => exact .cap (hmono _ _ hg)
  | error name => exact .error name

theorem hostLeafToGuest_spec (hs : Coherent s) (leaf : Leaf HostCap) :
    Wp (hostLeafToGuest isStorable leaf)
      (fun g t => Converts s t ∧ Coherent t ∧ LeafImage t.h2g leaf g)
      (fun _ t => Converts s t ∧ Coherent t) s := by
  cases leaf with
  | cap h =>
    unfold hostLeafToGuest
    rw [wp_map]
    apply wp_mono (hostCapToGuest_spec hs h)
    · intro g t ⟨hconv, ht, hg⟩
      exact ⟨hconv, ht, .cap hg⟩
    · exact fun _ _ he => he
  | error name => exact ⟨.refl s, hs, .error name⟩

theorem hostToGuest_spec (hs : Coherent s) (specimen : HostValue) :
    Wp (hostToGuest isStorable specimen)
      (fun g t => Converts s t ∧ Coherent t ∧ Image t.h2g specimen g)
      (fun _ t => Converts s t ∧ Coherent t) s := by
  have hleaves : ∀ leaves : List (Leaf HostCap), ∀ s, Coherent s →
      Wp (leaves.mapM (hostLeafToGuest isStorable))
        (fun gs t => Converts s t ∧ Coherent t ∧ List.Forall₂ (LeafImage t.h2g) leaves gs)
        (fun _ t => Converts s t ∧ Coherent t) s := by
    intro leaves
    induction leaves with
    | nil => exact fun s hs => ⟨.refl s, hs, .nil⟩
    | cons leaf leaves ih =>
      intro s hs
      simp only [List.mapM_cons, wp_bind]
      apply wp_mono (hostLeafToGuest_spec hs leaf)
      · rintro g t ⟨hst, ht, hg⟩
        apply wp_mono (ih t ht)
        · rintro gs u ⟨htu, hu, hgs⟩
          exact ⟨hst.trans htu, hu, .cons (hg.mono htu.h2g) hgs⟩
        · rintro _ u ⟨htu, hu⟩
          exact ⟨hst.trans htu, hu⟩
      · exact fun _ _ he => he
  unfold hostToGuest
  rw [wp_bind]
  apply wp_mono (hleaves specimen.leaves s hs)
  · rintro gs t ⟨hconv, ht, hgs⟩
    exact ⟨hconv, ht, rfl, hgs⟩
  · exact fun _ _ he => he

end Values

end AgoricSdk.AsyncFlow
