import AgoricSdk.Lib.Release
import AgoricSdk.SwingSet.Frame

/-!
What the pass over the krefs that may be free does to the reference counts: the
slots of a deleted promise are decremented, which puts those that lose their last
reference into the set.
-/

namespace AgoricSdk.SwingSet

open StateProgram

section Counts

/-- The count that keeps a promise, or that keeps an object reachable. -/
def KVStore.countOf (st : KVStore) (kref : KSlot) : Option Nat :=
  match kref.type with
  | .promise => (st.promises.lookup kref).map (·.refCount)
  | .object => (st.refCount.lookup kref).map (·.1)
  | .device => none

/-- The references that only make an object recognizable. -/
def KVStore.excessOf (st : KVStore) (kref : KSlot) : Option Nat :=
  (st.refCount.lookup kref).map fun counts => counts.2 - counts.1

/-- The references that the data of a settled promise holds. -/
def KVStore.slotsOf (st : KVStore) (kref : KSlot) : List KSlot :=
  match kref.type with
  | .promise => ((st.promises.lookup kref).map (·.state.slots)).getD []
  | _ => []

def KVStore.slotCount (st : KVStore) : Nat := st.promises.sumOver fun _ p => p.state.slots.length

theorem map_sub_zero (count : Option Nat) : count.map (· - 0) = count := by
  cases count <;> rfl

/-- The slots have each lost one reference; what that leaves without any joins the set. -/
structure Decremented (slots : List KSlot) (s t : KernelState) : Prop where
  owner : t.store.owner = s.store.owner
  clistK : t.store.clistK = s.store.clistK
  gcActions : t.store.gcActions = s.store.gcActions
  terminatedVats : t.terminatedVats = s.terminatedVats
  slotsOf : ∀ kref, t.store.slotsOf kref = s.store.slotsOf kref
  counts : ∀ kref, t.store.countOf kref = (s.store.countOf kref).map (· - slots.count kref)
  enough : ∀ kref n, s.store.countOf kref = some n → slots.count kref ≤ n
  excess : ∀ kref, t.store.excessOf kref = s.store.excessOf kref
  slotCount : t.store.slotCount = s.store.slotCount
  set : ∃ added, t.maybeFreeKrefs = s.maybeFreeKrefs ++ added ∧ added.Nodup ∧
    ∀ kref, kref ∈ added ↔ kref ∉ s.maybeFreeKrefs ∧ 0 < slots.count kref ∧
      t.store.countOf kref = some 0

variable {s t u : KernelState}

theorem Decremented.nil (s : KernelState) : Decremented [] s s where
  owner := rfl
  clistK := rfl
  gcActions := rfl
  terminatedVats := rfl
  slotsOf := fun _ => rfl
  counts := fun kref => (map_sub_zero (s.store.countOf kref)).symm
  enough := by simp
  excess := fun _ => rfl
  slotCount := rfl
  set := ⟨[], by simp⟩

theorem Decremented.append {slots more : List KSlot} (h : Decremented slots s u)
    (h' : Decremented more u t) : Decremented (slots ++ more) s t where
  owner := h'.owner.trans h.owner
  clistK := h'.clistK.trans h.clistK
  gcActions := h'.gcActions.trans h.gcActions
  terminatedVats := h'.terminatedVats.trans h.terminatedVats
  slotsOf := fun kref => (h'.slotsOf kref).trans (h.slotsOf kref)
  counts := by
    intro kref
    rw [h'.counts, h.counts, Option.map_map, List.count_append]
    congr 1
    funext n
    simp only [Function.comp_apply]
    omega
  enough := by
    intro kref n hn
    have hfirst := h.enough kref n hn
    have hrest := h'.enough kref (n - slots.count kref) (by rw [h.counts, hn]; rfl)
    rw [List.count_append]
    omega
  excess := fun kref => (h'.excess kref).trans (h.excess kref)
  slotCount := h'.slotCount.trans h.slotCount
  set := by
    obtain ⟨added, hset, hnodup, hadded⟩ := h.set
    obtain ⟨added', hset', hnodup', hadded'⟩ := h'.set
    have hmem (kref : KSlot) : kref ∈ added ++ added' ↔
        kref ∉ s.maybeFreeKrefs ∧ 0 < (slots ++ more).count kref ∧
          t.store.countOf kref = some 0 := by
      have hcount := h'.counts kref
      rw [List.mem_append, List.count_append, hadded, hadded', hset, List.mem_append, hadded]
      by_cases hmore : 0 < more.count kref
      · have hne : u.store.countOf kref ≠ some 0 := by
          intro hzero
          have := h'.enough kref 0 hzero
          omega
        constructor
        · rintro (⟨_, _, hzero⟩ | ⟨hout, _, hzero⟩)
          · exact absurd hzero hne
          · exact ⟨fun hin => hout (.inl hin), by omega, hzero⟩
        · rintro ⟨hout, _, hzero⟩
          refine .inr ⟨?_, hmore, hzero⟩
          rintro (hin | ⟨_, _, hin⟩)
          · exact hout hin
          · exact hne hin
      · have hsame : t.store.countOf kref = u.store.countOf kref := by
          rw [hcount, show more.count kref = 0 by omega]
          cases u.store.countOf kref <;> rfl
        rw [hsame]
        constructor
        · rintro (⟨hout, hpos, hzero⟩ | ⟨_, hpos, _⟩)
          · exact ⟨hout, by omega, hzero⟩
          · omega
        · rintro ⟨hout, hpos, hzero⟩
          exact .inl ⟨hout, by omega, hzero⟩
    refine ⟨added ++ added', ?_, ?_, hmem⟩
    · rw [hset', hset, List.append_assoc]
    · rw [List.nodup_append']
      refine ⟨hnodup, hnodup', ?_⟩
      intro kref hin hin'
      have hout := ((hadded' kref).mp hin').1
      rw [hset] at hout
      exact hout (List.mem_append_right _ hin)

end Counts

section Programs

variable {α : Type} {s : KernelState} {Q : α → KernelState → Prop}
  {E : Fault → KernelState → Prop}

theorem required_spec {value : Option α} {fault : Fault} (hQ : ∀ a, value = some a → Q a s)
    (hE : ∀ e, E e s) : Wp (required value fault) Q E s := by
  cases value with
  | none => exact hE fault
  | some a => exact hQ a rfl

theorem insist_spec {p : Prop} [Decidable p] {fault : Fault}
    {Q : PUnit → KernelState → Prop} (hQ : p → Q ⟨⟩ s) (hE : ∀ e, E e s) :
    Wp (insist p fault) Q E s := by
  unfold insist
  exact wp_ite hQ fun _ => hE fault

theorem wp_getStore {Q : KVStore → KernelState → Prop} : Wp getStore Q E s ↔ Q s.store s := Iff.rfl

theorem wp_modifyStore {Q : PUnit → KernelState → Prop} {f : KVStore → KVStore} :
    Wp (modifyStore f) Q E s ↔ Q ⟨⟩ { s with store := f s.store } := Iff.rfl

end Programs

section Decrements

variable {s t : KernelState} {kref : KSlot}

theorem mem_addIfMissing {β : Type} [DecidableEq β] {xs : List β} {x y : β} :
    y ∈ addIfMissing xs x ↔ y ∈ xs ∨ y = x := by
  unfold addIfMissing
  split
  · next hin =>
    constructor
    · exact .inl
    · rintro (h | rfl)
      · exact h
      · exact hin
  · rw [List.mem_append, List.mem_singleton]

/-- The set after one decrement, when the count of the kref has become `n`. -/
def setAfter (s : KernelState) (kref : KSlot) (n : Nat) : List KSlot :=
  if n = 0 then addIfMissing s.maybeFreeKrefs kref else s.maybeFreeKrefs

theorem setAfter_added (s : KernelState) (kref : KSlot) (n : Nat) {count : KSlot → Option Nat}
    (hcount : count kref = some n) :
    ∃ added, setAfter s kref n = s.maybeFreeKrefs ++ added ∧ added.Nodup ∧
      ∀ k, k ∈ added ↔ k ∉ s.maybeFreeKrefs ∧ 0 < [kref].count k ∧ count k = some 0 := by
  have hone (k : KSlot) : 0 < [kref].count k ↔ k = kref := by
    rw [List.count_pos_iff, List.mem_singleton]
  unfold setAfter addIfMissing
  by_cases hzero : n = 0
  · subst hzero
    by_cases hin : kref ∈ s.maybeFreeKrefs
    · refine ⟨[], by simp [hin], List.nodup_nil, fun k => ?_⟩
      rw [hone]
      constructor
      · exact nofun
      · rintro ⟨hout, rfl, _⟩
        exact absurd hin hout
    · refine ⟨[kref], by simp [hin], List.nodup_singleton kref, fun k => ?_⟩
      rw [hone, List.mem_singleton]
      constructor
      · rintro rfl
        exact ⟨hin, rfl, hcount⟩
      · exact fun h => h.2.1
  · refine ⟨[], by simp [hzero], List.nodup_nil, fun k => ?_⟩
    rw [hone]
    constructor
    · exact nofun
    · rintro ⟨_, rfl, hk⟩
      rw [hcount] at hk
      exact absurd (Option.some.inj hk) hzero

theorem count_singleton_eq (kref k : KSlot) : [kref].count k = if k = kref then 1 else 0 := by
  by_cases h : k = kref
  · simp [h]
  · simp [h, Ne.symm h]

theorem decremented_promise {p : KernelPromise} (htype : kref.type = .promise)
    (hp : s.store.promises.lookup kref = some p) (hpos : 0 < p.refCount) :
    Decremented [kref] s { s with
      store := { s.store with
        promises := s.store.promises.insert kref { p with refCount := p.refCount - 1 } }
      maybeFreeKrefs := setAfter s kref (p.refCount - 1) } := by
  have hcount : s.store.countOf kref = some p.refCount := by
    unfold KVStore.countOf
    rw [htype, hp]
    rfl
  have hcounts (k : KSlot) : KVStore.countOf { s.store with
      promises := s.store.promises.insert kref { p with refCount := p.refCount - 1 } } k =
        (s.store.countOf k).map (· - [kref].count k) := by
    rw [count_singleton_eq]
    by_cases hk : k = kref
    · subst hk
      rw [hcount, if_pos rfl]
      unfold KVStore.countOf
      rw [htype]
      simp
    · rw [if_neg hk, map_sub_zero]
      unfold KVStore.countOf
      cases k.type with
      | promise => simp [hk]
      | _ => rfl
  constructor
  case owner | clistK | gcActions | terminatedVats => rfl
  case slotsOf =>
    intro k
    unfold KVStore.slotsOf
    cases k.type with
    | promise =>
      by_cases hk : k = kref
      · simp [hk, hp]
      · simp [hk]
    | _ => rfl
  case counts => exact hcounts
  case enough =>
    intro k n hn
    rw [count_singleton_eq]
    split
    · next hk =>
      subst hk
      cases hcount.symm.trans hn
      exact hpos
    · exact Nat.zero_le n
  case excess => exact fun _ => rfl
  case slotCount =>
    apply Nat.add_right_cancel
    exact Table.sumOver_insert_some (f := fun _ p => p.state.slots.length) hp
  case set =>
    apply setAfter_added
    rw [hcounts, hcount, count_singleton_eq, if_pos rfl]
    rfl

theorem decremented_object {reachable recognizable : Nat} (htype : kref.type = .object)
    (hp : s.store.refCount.lookup kref = some (reachable, recognizable)) (hpos : 0 < reachable)
    (hle : reachable ≤ recognizable) :
    Decremented [kref] s { s with
      store := { s.store with
        refCount := s.store.refCount.insert kref (reachable - 1, recognizable - 1) }
      maybeFreeKrefs := setAfter s kref (reachable - 1) } := by
  have hcount : s.store.countOf kref = some reachable := by
    unfold KVStore.countOf
    rw [htype, hp]
    rfl
  have hcounts (k : KSlot) : KVStore.countOf { s.store with
      refCount := s.store.refCount.insert kref (reachable - 1, recognizable - 1) } k =
        (s.store.countOf k).map (· - [kref].count k) := by
    rw [count_singleton_eq]
    by_cases hk : k = kref
    · subst hk
      rw [hcount, if_pos rfl]
      unfold KVStore.countOf
      rw [htype]
      simp
    · rw [if_neg hk, map_sub_zero]
      unfold KVStore.countOf
      cases k.type with
      | object => simp [hk]
      | _ => rfl
  constructor
  case owner | clistK | gcActions | terminatedVats | slotCount => rfl
  case slotsOf => exact fun _ => rfl
  case counts => exact hcounts
  case enough =>
    intro k n hn
    rw [count_singleton_eq]
    split
    · next hk =>
      subst hk
      cases hcount.symm.trans hn
      exact hpos
    · exact Nat.zero_le n
  case excess =>
    intro k
    unfold KVStore.excessOf
    rw [Table.lookup_insert]
    split
    · next hk =>
      subst hk
      rw [hp, Option.map_some, Option.map_some]
      exact congrArg some (by omega)
    · rfl
  case set =>
    apply setAfter_added
    rw [hcounts, hcount, count_singleton_eq, if_pos rfl]
    rfl

theorem decremented_absent (h : s.store.countOf kref = none) : Decremented [kref] s s := by
  have hcounts (k : KSlot) :
      s.store.countOf k = (s.store.countOf k).map (· - [kref].count k) := by
    rw [count_singleton_eq]
    by_cases hk : k = kref
    · rw [hk, h]
      rfl
    · rw [if_neg hk, map_sub_zero]
  constructor
  case owner | clistK | gcActions | terminatedVats | slotCount => rfl
  case slotsOf | excess => exact fun _ => rfl
  case counts => exact hcounts
  case enough =>
    intro k n hn
    rw [count_singleton_eq]
    split
    · next hk =>
      rw [hk, h] at hn
      cases hn
    · exact Nat.zero_le n
  case set =>
    refine ⟨[], by simp, List.nodup_nil, fun k => ?_⟩
    constructor
    · exact nofun
    · rintro ⟨_, hpos, hzero⟩
      rw [List.count_pos_iff, List.mem_singleton] at hpos
      rw [hpos, h] at hzero
      cases hzero

theorem getObjectRefCount_spec {Q : ObjectRefCount → KernelState → Prop}
    {E : Fault → KernelState → Prop}
    (hnone : s.store.refCount.lookup kref = none → Q ⟨false, 0, 0⟩ s)
    (hsome : ∀ reachable recognizable,
      s.store.refCount.lookup kref = some (reachable, recognizable) →
        reachable ≤ recognizable → Q ⟨true, reachable, recognizable⟩ s)
    (hE : ∀ e, E e s) : Wp (getObjectRefCount kref) Q E s := by
  unfold getObjectRefCount
  rw [wp_bind, wp_getStore]
  cases h : s.store.refCount.lookup kref with
  | none => exact hnone h
  | some counts =>
    obtain ⟨reachable, recognizable⟩ := counts
    simp only [wp_bind]
    exact insist_spec (hsome reachable recognizable h) hE

theorem decrementRefCount_spec (kref : KSlot) :
    Wp (decrementRefCount kref .reachable) (fun _ t => Decremented [kref] s t) (fun _ _ => True)
      s := by
  unfold decrementRefCount
  cases htype : kref.type with
  | device =>
    apply decremented_absent
    unfold KVStore.countOf
    rw [htype]
  | promise =>
    simp only [wp_bind, wp_getStore]
    refine required_spec (fun p hp => ?_) fun _ => trivial
    refine insist_spec (fun hpos => ?_) fun _ => trivial
    have hdone := decremented_promise htype hp hpos
    unfold setPromiseRefCount
    rw [wp_modifyStore]
    simp only [hp]
    unfold setAfter at hdone
    apply wp_ite
    · intro hzero
      rw [if_pos hzero] at hdone
      exact hdone
    · intro hzero
      rw [if_neg hzero] at hdone
      exact hdone
  | object =>
    unfold RefOptions.reachable kernelObjectExists
    simp only [wp_bind, wp_getStore, wp_pure]
    apply wp_ite
    · intro hexists
      rw [wp_bind]
      apply getObjectRefCount_spec
      · intro hnone
        simp [Table.has, hnone] at hexists
      · intro reachable recognizable hcounts hle
        have hset (set : List KSlot)
            (hafter : 0 < reachable → set = setAfter s kref (reachable - 1)) :
            Wp (setObjectRefCount kref ((reachable : Int) - 1) ((recognizable : Int) - 1))
              (fun _ t => Decremented [kref] s t) (fun _ _ => True)
              { s with maybeFreeKrefs := set } := by
          unfold setObjectRefCount
          rw [wp_bind]
          refine insist_spec (fun hpos => ?_) fun _ => trivial
          rw [wp_bind]
          refine insist_spec (fun _ => ?_) fun _ => trivial
          have hreachable : 0 < reachable := by omega
          rw [wp_modifyStore, hafter hreachable,
            show ((reachable : Int) - 1).toNat = reachable - 1 by omega,
            show ((recognizable : Int) - 1).toNat = recognizable - 1 by omega]
          exact decremented_object htype hcounts hreachable hle
        simp only [Bool.false_eq_true, if_false]
        apply wp_ite
        · intro hzero
          apply hset
          intro hreachable
          exact (if_pos (by omega)).symm
        · intro hzero
          apply hset
          intro hreachable
          exact (if_neg (by omega)).symm
      · exact fun _ => trivial
    · intro hexists
      apply decremented_absent
      unfold KVStore.countOf
      rw [htype]
      simp [Table.has] at hexists
      simp [hexists]

theorem decrementSlots_spec (slots : List KSlot) :
    Wp (decrementSlots slots) (fun _ t => Decremented slots s t) (fun _ _ => True) s := by
  unfold decrementSlots
  induction slots generalizing s with
  | nil => exact Decremented.nil s
  | cons slot slots ih =>
    change Wp (decrementRefCount slot .reachable >>= fun _ =>
      slots.forM fun slot => decrementRefCount slot .reachable) _ _ s
    rw [wp_bind]
    refine wp_mono (decrementRefCount_spec slot) ?_ fun _ _ _ => trivial
    intro _ u hfirst
    refine wp_mono ih ?_ fun _ _ _ => trivial
    exact fun _ t hrest => hfirst.append hrest

end Decrements

section Importers

/-- What a pass over the krefs reads or writes, the statistics apart. -/
structure CountView where
  owner : Table KSlot VatID
  refCount : Table KSlot (Nat × Nat)
  promises : Table KSlot KernelPromise
  clistK : Table (VatID × KSlot) (Bool × JSString)
  gcActions : List GcAction
  terminatedVats : List VatID
  maybeFreeKrefs : List KSlot

@[reducible] def KernelState.counted (s : KernelState) : CountView where
  owner := s.store.owner
  refCount := s.store.refCount
  promises := s.store.promises
  clistK := s.store.clistK
  gcActions := s.store.gcActions
  terminatedVats := s.terminatedVats
  maybeFreeKrefs := s.maybeFreeKrefs

def SameCounts (s t : KernelState) : Prop := t.counted = s.counted

instance : IsPreorder KernelState SameCounts where
  refl _ := rfl
  trans _ _ _ h h' := h'.trans h

instance {f : KernelState → KernelState} [h : Same (fun s => (f s).counted) KernelState.counted] :
    Moves SameCounts (modify f : KM PUnit) :=
  moves_modify fun s => congrFun h.eq s

instance (vatID : VatID) : Moves SameCounts (provideVatKeeper vatID) := by
  unfold provideVatKeeper; infer_instance

instance (vref : JSString) : Moves SameCounts (parsedVatSlot vref) := by
  unfold parsedVatSlot; infer_instance

instance (vatID : VatID) (kref : KSlot) : Moves SameCounts (importsKernelSlot vatID kref) := by
  unfold importsKernelSlot
  refine moves_seq inferInstance fun _ => ?_
  split <;> infer_instance

instance : Moves SameCounts getStaticVats := by
  unfold getStaticVats; infer_instance

set_option synthInstance.maxSize 2000 in
instance (kref : KSlot) : Moves SameCounts (getImporters kref) := by
  unfold getImporters
  dsimp only
  infer_instance

end Importers

section Visits

variable {s t u : KernelState} {kref : KSlot}

/-- An object that nobody owns is deleted. -/
structure Retired (kref : KSlot) (s t : KernelState) : Prop where
  promises : t.store.promises = s.store.promises
  maybeFreeKrefs : t.maybeFreeKrefs = s.maybeFreeKrefs
  terminatedVats : t.terminatedVats = s.terminatedVats
  refCount : t.store.refCount = s.store.refCount.erase kref
  owner : ∀ k, k ≠ kref → t.store.owner.lookup k = s.store.owner.lookup k
  clistK : ∀ vatID, vatID ∉ s.terminatedVats → ∀ k,
    t.store.clistK.lookup (vatID, k) = s.store.clistK.lookup (vatID, k)
  gcKept : ∀ action ∈ s.store.gcActions, action ∈ t.store.gcActions
  gcNew : ∀ action ∈ t.store.gcActions,
    action ∈ s.store.gcActions ∨ action.type = .retireImport

theorem mem_insertAll {β : Type} [DecidableEq β] {xs ys : List β} {y : β} :
    y ∈ xs.foldl addIfMissing ys ↔ y ∈ ys ∨ y ∈ xs := by
  induction xs generalizing ys with
  | nil => simp
  | cons x xs ih =>
    rw [List.foldl_cons, ih, mem_addIfMissing, List.mem_cons, or_assoc]

theorem mem_sortBy {β : Type} {key : β → JSString} {xs : List β} {x : β} :
    x ∈ sortBy key xs ↔ x ∈ xs :=
  (List.perm_insertionSort _ xs).mem_iff

theorem addGCActions_spec (actions : List GcAction) :
    Wp (addGCActions actions) (fun _ t => ∃ gcActions,
      t = { s with store := { s.store with gcActions } } ∧
        ∀ action, action ∈ gcActions ↔ action ∈ s.store.gcActions ∨ action ∈ actions)
      (fun _ _ => True) s := by
  unfold addGCActions
  rw [wp_bind]
  have hchecked : Wp (actions.forM fun action => insistKernelType .object action.kref)
      (fun _ t => t = s) (fun _ _ => True) s := by
    refine wp_forM_const (I := fun t => t = s) ?_ rfl
    rintro action _ _ rfl
    unfold insistKernelType
    exact insist_spec (fun _ => rfl) fun _ => trivial
  refine wp_mono hchecked ?_ fun _ _ _ => trivial
  rintro _ _ rfl
  rw [wp_bind, wp_getStore]
  refine ⟨_, rfl, fun action => ?_⟩
  rw [mem_sortBy, mem_insertAll]

theorem retired_deleted (kref : KSlot) :
    Wp (deleteKernelObject kref) (fun _ t => Retired kref s t ∧
      t.store.gcActions = s.store.gcActions) (fun _ _ => True) s := by
  unfold deleteKernelObject decStat
  rw [wp_bind, wp_modifyStore, wp_modify]
  refine ⟨⟨rfl, rfl, rfl, rfl, fun k hk => ?_, fun _ _ _ => rfl, fun _ h => h, fun _ => .inl⟩, rfl⟩
  show (s.store.owner.erase kref).lookup k = _
  rw [Table.lookup_erase, if_neg hk]

theorem retireKernelObjects_spec (kref : KSlot) :
    Wp (retireKernelObjects [kref]) (fun _ t => Retired kref s t) (fun _ _ => True) s := by
  unfold retireKernelObjects
  simp only [List.mapM_cons, List.mapM_nil, wp_bind, wp_pure]
  refine wp_mono (wp_of_moves SameCounts (getImporters kref) s) ?_ fun _ _ _ => trivial
  intro importers u hsame
  refine wp_mono (retired_deleted kref) ?_ fun _ _ _ => trivial
  rintro _ v ⟨hretired, hactions⟩
  refine wp_mono (addGCActions_spec _) ?_ fun _ _ _ => trivial
  rintro _ t ⟨gcActions, rfl, hgc⟩
  have hview (β : Type) (f : CountView → β) : f u.counted = f s.counted := congrArg f hsame
  have hterminated : u.terminatedVats = s.terminatedVats := hview _ (·.terminatedVats)
  have hgcActions : v.store.gcActions = s.store.gcActions :=
    hactions.trans (hview _ (·.gcActions))
  rw [hgcActions] at hgc
  constructor
  case promises => exact hretired.promises.trans (hview _ (·.promises))
  case maybeFreeKrefs => exact hretired.maybeFreeKrefs.trans (hview _ (·.maybeFreeKrefs))
  case terminatedVats => exact hretired.terminatedVats.trans hterminated
  case refCount =>
    exact hretired.refCount.trans (hview _ (·.refCount.erase kref))
  case owner =>
    intro k hk
    exact (hretired.owner k hk).trans (hview _ (·.owner.lookup k))
  case clistK =>
    intro vatID hvat k
    exact (hretired.clistK vatID (hterminated ▸ hvat) k).trans
      (hview _ (·.clistK.lookup (vatID, k)))
  case gcKept => exact fun action h => (hgc action).mpr (.inl h)
  case gcNew =>
    intro action h
    rcases (hgc action).mp h with h | h
    · exact .inl h
    · simp only [List.flatten_cons, List.flatten_nil, List.append_nil, List.mem_map] at h
      obtain ⟨vatID, _, rfl⟩ := h
      exact .inr rfl

theorem Retired.after_abandon {owner : Table KSlot VatID}
    {clistK : Table (VatID × KSlot) (Bool × JSString)} {clistV : Table (VatID × JSString) KSlot}
    (h : Retired kref { s with store := { s.store with owner, clistK, clistV } } t)
    (howner : ∀ k, k ≠ kref → owner.lookup k = s.store.owner.lookup k)
    (hclist : ∀ vatID, vatID ∉ s.terminatedVats → ∀ k,
      clistK.lookup (vatID, k) = s.store.clistK.lookup (vatID, k)) : Retired kref s t where
  promises := h.promises
  maybeFreeKrefs := h.maybeFreeKrefs
  terminatedVats := h.terminatedVats
  refCount := h.refCount
  owner := fun k hk => (h.owner k hk).trans (howner k hk)
  clistK := fun vatID hvat k => (h.clistK vatID hvat k).trans (hclist vatID hvat k)
  gcKept := h.gcKept
  gcNew := h.gcNew

/-- What a visit of an object does. -/
inductive ObjectVisit (kref : KSlot) (s t : KernelState) (actions : List GcAction) : Prop where
  | held : (∃ n, s.store.countOf kref = some n ∧ n ≠ 0) → t = s → actions = [] →
      ObjectVisit kref s t actions
  | owned (vatID : VatID) (flag : Bool) (vref : JSString) :
      (∀ n, s.store.countOf kref = some n → n = 0) → s.store.owner.lookup kref = some vatID → vatID ∉ s.terminatedVats →
      s.store.clistK.lookup (vatID, kref) = some (flag, vref) →
      SameCounts s t → (∀ action ∈ actions, action.kref = kref) →
      (flag = true → ⟨vatID, .dropExport, kref⟩ ∈ actions) →
      (s.store.excessOf kref = some 0 → ⟨vatID, .retireExport, kref⟩ ∈ actions) →
      ObjectVisit kref s t actions
  | retired : (∀ n, s.store.countOf kref = some n → n = 0) →
      (∀ vatID, s.store.owner.lookup kref = some vatID → vatID ∈ s.terminatedVats) →
      Retired kref s t → actions = [] → ObjectVisit kref s t actions

theorem processObjectRefcount_spec (htype : kref.type = .object) :
    Wp (processObjectRefcount kref) (fun actions t => ObjectVisit kref s t actions)
      (fun _ _ => True) s := by
  have hcount : s.store.countOf kref = (s.store.refCount.lookup kref).map (·.1) := by
    unfold KVStore.countOf
    rw [htype]
  have hexcess : s.store.excessOf kref =
    (s.store.refCount.lookup kref).map fun counts => counts.2 - counts.1 := rfl
  have hretire (recognizable : Nat) (u : KernelState) :
      Wp (do
        if recognizable = 0 then deleteKernelObject kref else retireKernelObjects [kref]
        return ([] : List GcAction))
        (fun actions t => Retired kref u t ∧ actions = []) (fun _ _ => True) u := by
    apply wp_ite
    · intro _
      rw [wp_bind]
      exact wp_mono (retired_deleted kref) (fun _ _ h => ⟨h.1, rfl⟩) fun _ _ _ => trivial
    · intro _
      rw [wp_bind]
      exact wp_mono (retireKernelObjects_spec kref) (fun _ _ h => ⟨h, rfl⟩) fun _ _ _ => trivial
  have hcounts : Wp (getObjectRefCount kref) (fun counts t => t = s ∧
      (∀ n, s.store.countOf kref = some n → n = counts.reachable) ∧
      (counts.reachable ≠ 0 → s.store.countOf kref = some counts.reachable) ∧
      (counts.reachable = 0 → s.store.excessOf kref = some 0 → counts.recognizable = 0))
      (fun _ _ => True) s := by
    apply getObjectRefCount_spec
    · intro hnone
      rw [hnone] at hcount
      refine ⟨rfl, fun n hn => ?_, fun h => absurd rfl h, fun _ _ => rfl⟩
      rw [hcount] at hn
      cases hn
    · intro reachable recognizable hsome hle
      rw [hsome] at hcount hexcess
      refine ⟨rfl, fun n hn => ?_, fun _ => hcount, fun hreach h => ?_⟩
      · exact Option.some.inj (hn.symm.trans hcount)
      · have hzero : recognizable - reachable = 0 := Option.some.inj (hexcess.symm.trans h)
        have hreach : reachable = 0 := hreach
        show recognizable = 0
        omega
    · exact fun _ => trivial
  unfold processObjectRefcount
  rw [wp_bind]
  refine wp_mono hcounts ?_ fun _ _ _ => trivial
  rintro counts t ⟨ht, hcounted, hheld, hrecognizable⟩
  rw [ht]
  apply wp_ite
  · intro hreach
    rw [hreach] at hcounted
    have hrecognizable := hrecognizable hreach
    rw [wp_bind, wp_getStore]
    cases howner : s.store.owner.lookup kref with
    | none =>
      refine wp_mono (hretire counts.recognizable s) ?_ fun _ _ _ => trivial
      rintro actions t ⟨h, hactions⟩
      exact .retired hcounted (fun vatID h => by simp [howner] at h) h hactions
    | some ownerVatID =>
      simp only [wp_bind, wp_get]
      apply wp_ite
      · intro hterminated
        unfold getReachableAndVatSlot eraseCListPair
        simp only [wp_bind, wp_getStore]
        refine required_spec (fun entry hentry => ?_) fun _ => trivial
        rw [wp_modifyStore, wp_modifyStore]
        refine wp_mono (hretire counts.recognizable _) ?_ fun _ _ _ => trivial
        rintro actions t ⟨h, hactions⟩
        have h : Retired kref { s with store := { s.store with
            owner := s.store.owner.erase kref
            clistK := s.store.clistK.erase (ownerVatID, kref)
            clistV := s.store.clistV.erase (ownerVatID, entry.2) } } t := h
        refine .retired hcounted ?_ (Retired.after_abandon h ?_ ?_) hactions
        · intro vatID hvat
          cases howner.symm.trans hvat
          exact hterminated
        · exact fun k hk => (Table.lookup_erase ..).trans (if_neg hk)
        · intro vatID hvat k
          refine (Table.lookup_erase ..).trans (if_neg fun hsame => ?_)
          cases hsame
          exact hvat hterminated
      · intro hlive
        simp only [wp_bind]
        refine wp_mono (wp_of_moves SameCounts (provideVatKeeper ownerVatID) s) ?_ fun _ _ _ => trivial
        intro _ u hsame
        unfold getReachableFlag getReachableAndVatSlot
        simp only [wp_bind, wp_getStore]
        refine required_spec (fun entry hentry => ?_) fun _ => trivial
        obtain ⟨flag, vref⟩ := entry
        have hclist : u.store.clistK = s.store.clistK := congrArg CountView.clistK hsame
        rw [hclist] at hentry
        refine .owned ownerVatID flag vref hcounted howner hlive hentry hsame ?_ ?_ ?_
        · intro action haction
          rcases List.mem_append.mp haction with h | h
          all_goals
            split at h
            · rw [List.mem_singleton.mp h]
            · cases h
        · intro hflag
          subst hflag
          simp
        · intro hnone
          simp [hrecognizable hnone]
  · exact fun hreach => .held ⟨counts.reachable, hheld hreach, hreach⟩ rfl rfl

/-- What a visit of a promise does. -/
inductive PromiseVisit (kpid : KSlot) (s t : KernelState) : Prop where
  | left : s.store.countOf kpid ≠ some 0 → t = s → PromiseVisit kpid s t
  | deleted (u : KernelState) : s.store.countOf kpid = some 0 →
      Decremented (s.store.slotsOf kpid) s u →
      t.counted = { u.counted with promises := u.store.promises.erase kpid } →
      PromiseVisit kpid s t

theorem processPromiseRefcount_spec {kpid : KSlot} (htype : kpid.type = .promise) :
    Wp (processPromiseRefcount kpid) (fun _ t => PromiseVisit kpid s t) (fun _ _ => True) s := by
  have hcount : s.store.countOf kpid = (s.store.promises.lookup kpid).map (·.refCount) := by
    unfold KVStore.countOf
    rw [htype]
  have hslots : s.store.slotsOf kpid =
      ((s.store.promises.lookup kpid).map (·.state.slots)).getD [] := by
    unfold KVStore.slotsOf
    rw [htype]
  unfold processPromiseRefcount hasKernelPromise insistKernelType
  simp only [wp_bind]
  refine insist_spec (fun _ => ?_) fun _ => trivial
  simp only [wp_getStore, wp_pure]
  cases hp : s.store.promises.lookup kpid with
  | none =>
    rw [hp] at hcount
    apply wp_ite
    · intro hhas
      simp [Table.has, hp] at hhas
    · intro _
      refine .left ?_ rfl
      rw [hcount]
      intro h
      cases h
  | some p =>
    rw [hp] at hcount hslots
    apply wp_ite
    · intro _
      unfold getKernelPromise insistKernelType
      simp only [wp_bind]
      refine insist_spec (fun _ => ?_) fun _ => trivial
      rw [wp_getStore]
      refine required_spec (fun found hfound => ?_) fun _ => trivial
      cases hp.symm.trans hfound
      apply wp_ite
      · intro hzero
        have hslots : s.store.slotsOf kpid = p.state.slots := hslots
        have hdelete {m : KM PUnit} (hm : Wp m (fun _ u => Decremented (s.store.slotsOf kpid) s u)
            (fun _ _ => True) s) :
            Wp (m >>= fun _ => deleteKernelPromise kpid) (fun _ t => PromiseVisit kpid s t)
              (fun _ _ => True) s := by
          rw [wp_bind]
          refine wp_mono hm ?_ fun _ _ _ => trivial
          intro _ u hu
          unfold deleteKernelPromise decStat
          simp only [wp_bind, wp_getStore, wp_modify, wp_modifyStore]
          refine required_spec (fun _ _ => ?_) fun _ => trivial
          exact .deleted u (by rw [hcount, Option.map_some, hzero]) hu rfl
        cases hstate : p.state with
        | unresolved decider policy subscribers queue =>
          have hnil : Wp (pure ⟨⟩ : KM PUnit) (fun _ u => Decremented (s.store.slotsOf kpid) s u)
              (fun _ _ => True) s := by
            rw [hslots, hstate]
            exact Decremented.nil s
          exact hdelete hnil
        | fulfilled data =>
          apply hdelete
          rw [hslots, hstate]
          exact decrementSlots_spec data.slots
        | rejected data =>
          apply hdelete
          rw [hslots, hstate]
          exact decrementSlots_spec data.slots
      · intro hzero
        refine .left ?_ rfl
        rw [hcount]
        exact fun h => hzero (Option.some.inj h)
    · intro hhas
      simp [Table.has, hp] at hhas

end Visits

end AgoricSdk.SwingSet
